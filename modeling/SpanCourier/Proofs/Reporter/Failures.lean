import Mathlib.Data.List.Forall2
import SpanCourier.Proofs.Reporter.Rounds

set_option autoImplicit false

/-! # Failed sends do not disturb the others

Two runs are driven in the same way, but some sends that succeed in one fail in the other, without
the transport being closed. What a failed send leaves behind is its toll: it is counted, noted and
its spans are lost. Nothing that a reporter does looks at the toll, so two states that differ in
nothing else (`State.Alike`) stay so, whatever happens to both (`State.Alike.step`). And as whoever
drives the runs does not look at it either (`Driver`), what happens to both is the same.

The tolls themselves differ by just the messages that failed in one run and not in the other
(`Toll.Matches`).
-/

namespace SpanCourier

/-! ## Sends that end differently -/

namespace Ending

/-- The send failed. -/
def fails (e : Ending) : Bool :=
  match e.outcome with
  | .failed _ => true
  | _ => false

/-- Two sends of the same message by the same sender. -/
def Twin (e e' : Ending) : Prop := e'.sender = e.sender ∧ e'.message = e.message

end Ending

/-- The spans in the messages that failed in one run and not in the other. -/
def failedOnly (endings others : List Ending) : List Nat :=
  ((endings.zip others).filter fun p => p.1.fails && !p.2.fails).flatMap fun p =>
    p.1.message.map Parcel.serial

theorem failedOnly_concat {endings others : List Ending} (h : endings.length = others.length)
    (e other : Ending) :
    failedOnly (endings ++ [e]) (others ++ [other]) =
      failedOnly endings others
        ++ if e.fails && !other.fails then e.message.map Parcel.serial else [] := by
  rw [failedOnly, List.zip_append h]
  cases hf : e.fails && !other.fails with
  | true => simp [failedOnly, hf]
  | false => simp [failedOnly, hf]

/-! ## What failures leave behind -/

/-- What failed sends leave behind: the warning that was given, notices, counts of what was lost,
and how the sends ended. -/
structure Toll where
  warned : Bool
  notices : List Notice
  messagesDropped : TransportError.Kind → UInt64
  spansDropped : UInt64
  lost : List Nat
  endings : List Ending

namespace Toll

/-- The toll after spans were lost. -/
def lose (a : Toll) (serials : List Nat) : Toll :=
  { a with
    spansDropped := a.spansDropped + UInt64.ofNat serials.length
    lost := a.lost ++ serials }

/-- The toll after a notice. -/
def note (a : Toll) (notice : Notice) : Toll := { a with notices := a.notices ++ [notice] }

/-- Two tolls of the same sends. They differ by the spans in the messages that failed for one of
them only. -/
structure Matches (a b : Toll) : Prop where
  endings : List.Forall₂ Ending.Twin a.endings b.endings
  lost : ∀ serial,
    a.lost.count serial + (failedOnly b.endings a.endings).count serial =
      b.lost.count serial + (failedOnly a.endings b.endings).count serial
  dropped :
    a.spansDropped + UInt64.ofNat (failedOnly b.endings a.endings).length =
      b.spansDropped + UInt64.ofNat (failedOnly a.endings b.endings).length

namespace Matches

variable {a b : Toll}

/-- What is lost in both runs changes nothing. -/
theorem lose (h : a.Matches b) (serials : List Nat) :
    (a.lose serials).Matches (b.lose serials) := by
  refine ⟨h.endings, fun serial => ?_, ?_⟩
  · have hlost := h.lost serial
    simp only [Toll.lose, List.count_append]
    omega
  · have hdropped := h.dropped
    simp only [Toll.lose]
    grind

/-- Nor does what is noted. -/
theorem note (h : a.Matches b) (notice notice' : Notice) :
    (a.note notice).Matches (b.note notice') :=
  ⟨h.endings, h.lost, h.dropped⟩

end Matches

/-- The toll after a send has ended. -/
def ended (r : Reporter) (a : Toll) (sender : Sender) (message : List Parcel) (outcome : Outcome) :
    Toll :=
  let a := { a with endings := a.endings ++ [⟨sender, message, outcome⟩] }
  match outcome with
  | .failed error =>
    { (a.lose (message.map Parcel.serial)).note
        (.sendFailed (!a.warned) message.length r.transport.name error) with
      warned := true
      messagesDropped := fun k =>
        if k = error.kind then a.messagesDropped k + 1 else a.messagesDropped k }
  | _ => a

/-- A send that has ended adds its spans to what is lost if it has failed. -/
theorem ended_eq (r : Reporter) (a : Toll) (sender : Sender) (message : List Parcel)
    (outcome : Outcome) :
    let e : Ending := ⟨sender, message, outcome⟩
    let serials := if e.fails then message.map Parcel.serial else []
    (a.ended r sender message outcome).endings = a.endings ++ [e]
      ∧ (a.ended r sender message outcome).lost = a.lost ++ serials
      ∧ (a.ended r sender message outcome).spansDropped =
        a.spansDropped + UInt64.ofNat serials.length := by
  cases outcome with
  | sent => simp [ended, Ending.fails]
  | failed error => simp [ended, Ending.fails, lose, note]
  | crashed => simp [ended, Ending.fails]

/-- However a send ends in either run, its tolls differ by its spans if it failed in one of them
only. -/
theorem Matches.ended {a b : Toll} (h : a.Matches b) (r : Reporter) (sender : Sender)
    (message : List Parcel) (outcome other : Outcome) :
    (a.ended r sender message outcome).Matches (b.ended r sender message other) := by
  obtain ⟨hae, hal, had⟩ := ended_eq r a sender message outcome
  obtain ⟨hbe, hbl, hbd⟩ := ended_eq r b sender message other
  have hlength := h.endings.length_eq
  refine ⟨?_, fun serial => ?_, ?_⟩
  · rw [hae, hbe]
    exact List.rel_append h.endings (.cons ⟨rfl, rfl⟩ .nil)
  · -- the spans of a message that failed once count on the side on which it did not
    have hlost := h.lost serial
    rw [hae, hbe, hal, hbl, failedOnly_concat hlength, failedOnly_concat hlength.symm]
    simp only [List.count_append]
    cases Ending.fails ⟨sender, message, outcome⟩ <;>
      cases Ending.fails ⟨sender, message, other⟩ <;> simp <;> omega
  · have hdropped := h.dropped
    rw [hae, hbe, had, hbd, failedOnly_concat hlength, failedOnly_concat hlength.symm]
    cases Ending.fails ⟨sender, message, outcome⟩ <;>
      cases Ending.fails ⟨sender, message, other⟩ <;> simp <;> grind

end Toll

/-! ## States that differ in their toll -/

namespace State

variable {r : Reporter} {s s' t t' : State}

/-- The toll of a state. -/
def toll (s : State) : Toll where
  warned := s.warned
  notices := s.notices
  messagesDropped := s.metrics.messagesDropped
  spansDropped := s.metrics.spansDropped
  lost := s.journal.lost
  endings := s.journal.endings

/-- The state with another toll. -/
def bearing (s : State) (a : Toll) : State :=
  { s with
    warned := a.warned
    notices := a.notices
    metrics := { s.metrics with
      messagesDropped := a.messagesDropped
      spansDropped := a.spansDropped }
    journal := { s.journal with lost := a.lost, endings := a.endings } }

theorem lose_bearing (s : State) (a : Toll) (serials : List Nat) :
    (s.bearing a).lose serials = s.bearing (a.lose serials) := by
  rw [lose_eq]
  rfl

theorem endSend_bearing (r : Reporter) (s : State) (a : Toll) (sender : Sender)
    (message : List Parcel) (outcome : Outcome) :
    (s.bearing a).endSend r sender message outcome =
      s.bearing (a.ended r sender message outcome) := by
  cases outcome with
  | sent => rfl
  | failed error =>
    rw [endSend_failed]
    simp only [Toll.ended, Toll.lose, List.length_map]
    rfl
  | crashed => rfl

/-- Two states that differ in their tolls, and in these by no more than the messages that failed in
one run only. -/
def Alike (s t : State) : Prop :=
  ∃ (u : State) (a b : Toll), a.Matches b ∧ s = u.bearing a ∧ t = u.bearing b

namespace Alike

/-- What does not look at the toll is the same in both. -/
theorem sees {α : Type} (h : s.Alike t) (f : State → α)
    (hf : ∀ (u : State) (a : Toll), f (u.bearing a) = f u) : f t = f s := by
  obtain ⟨u, a, b, -, rfl, rfl⟩ := h
  rw [hf, hf]

theorem worker_eq (h : s.Alike t) : t.worker = s.worker := h.sees State.worker fun _ _ => rfl

theorem closed_eq (h : s.Alike t) : t.closed = s.closed := h.sees State.closed fun _ _ => rfl

theorem intake_eq (h : s.Alike t) : t.intake = s.intake := h.sees State.intake fun _ _ => rfl

theorem now_eq (h : s.Alike t) : t.now = s.now := h.sees State.now fun _ _ => rfl

/-- A change that neither looks at the toll nor adds to it. -/
theorem change (h : s.Alike t) (f : State → State)
    (hf : ∀ (u : State) (a : Toll), f (u.bearing a) = (f u).bearing a) : (f s).Alike (f t) := by
  obtain ⟨u, a, b, hab, rfl, rfl⟩ := h
  exact ⟨f u, a, b, hab, hf u a, hf u b⟩

theorem lose (h : s.Alike t) (serials : List Nat) : (s.lose serials).Alike (t.lose serials) := by
  obtain ⟨u, a, b, hab, rfl, rfl⟩ := h
  exact ⟨u, _, _, hab.lose serials, lose_bearing u a serials, lose_bearing u b serials⟩

theorem note (h : s.Alike t) (notice notice' : Notice) :
    (s.note notice).Alike (t.note notice') := by
  obtain ⟨u, a, b, hab, rfl, rfl⟩ := h
  exact ⟨u, _, _, hab.note notice notice', rfl, rfl⟩

theorem endSend (h : s.Alike t) (r : Reporter) (sender : Sender) (message : List Parcel)
    (outcome other : Outcome) :
    (s.endSend r sender message outcome).Alike (t.endSend r sender message other) := by
  obtain ⟨u, a, b, hab, rfl, rfl⟩ := h
  exact ⟨u, _, _, hab.ended r sender message outcome other,
    endSend_bearing r u a sender message outcome, endSend_bearing r u b sender message other⟩

theorem gauge (h : s.Alike t) : s.gauge.Alike t.gauge := h.change State.gauge fun _ _ => rfl

theorem finish (h : s.Alike t) (id : Nat) (result : CallResult) :
    (s.finish id result).Alike (t.finish id result) :=
  h.change (State.finish · id result) fun _ _ => rfl

theorem startWorker (h : s.Alike t) (r : Reporter) : (s.startWorker r).Alike (t.startWorker r) := by
  refine h.change (State.startWorker r) fun u a => ?_
  have hstarted : (u.bearing a).started = u.started := rfl
  have hlatch : (u.bearing a).latch = u.latch := rfl
  rw [State.startWorker, State.startWorker, hstarted]
  split
  · rfl
  · dsimp only
    rw [hlatch]
    split
    · rfl
    · rfl

theorem report (h : s.Alike t) (r : Reporter) (span : Span) :
    (s.report r span).Alike (t.report r span) := by
  have hrejects : t.rejects r span = s.rejects r span := by rw [rejects, rejects, h.closed_eq]
  have hreported : t.journal.reported = s.journal.reported :=
    h.sees (fun u => u.journal.reported) fun _ _ => rfl
  have hcounted : ((s.startWorker r).counted r span).Alike ((t.startWorker r).counted r span) :=
    (h.startWorker r).change (State.counted r · span) fun _ _ => rfl
  have ht := report_cases r t span
  rw [hrejects, hreported, h.intake_eq] at ht
  -- the span is queued in both runs or in neither
  rcases report_cases r s span with ⟨hcause, hs⟩ | ⟨hfits, intake, hqueued, hs⟩
  · rcases ht with ⟨-, ht⟩ | ⟨hfits, intake, hqueued, -⟩
    · rw [hs, ht]
      exact hcounted.lose _
    · rw [hfits, hqueued] at hcause
      simp at hcause
  · rcases ht with ⟨hcause, -⟩ | ⟨-, intake', hqueued', ht⟩
    · rw [hfits, hqueued] at hcause
      simp at hcause
    · obtain rfl := Option.some.inj (hqueued.symm.trans hqueued')
      rw [hs, ht]
      exact hcounted.change (fun u => { u with intake }) fun _ _ => rfl

/-! ### The worker -/

theorem dispatch (h : s.Alike t) (r : Reporter) (batch : Batch Parcel) :
    ∃ s' t' batch' message,
      s.dispatch r batch = (s', batch', message) ∧ t.dispatch r batch = (t', batch', message)
      ∧ s'.Alike t' := by
  have hpacks : t.gauge.packs batch = s.gauge.packs batch := by
    rw [packs, packs, h.gauge.closed_eq, h.gauge.now_eq]
  unfold State.dispatch
  dsimp only
  rw [hpacks]
  split
  · exact ⟨_, _, _, _, rfl, rfl, h.gauge⟩
  · -- packing looks at nothing but the batch
    generalize batch.drain (Packing.offer r) {} = result
    obtain ⟨batch', ⟨message, overflow⟩, count, crashed⟩ := result
    have hcounted := h.gauge.change
      (fun u => (u.measure .message).measure (.messageBytes batch.size)) fun _ _ => rfl
    cases overflow with
    | none => exact ⟨_, _, _, _, rfl, rfl, hcounted⟩
    | some parcel => exact ⟨_, _, _, _, rfl, rfl, (hcounted.lose _).note _ _⟩

theorem endWorker (h : s.Alike t) (batch : Batch Parcel) (crashed : Bool) :
    (s.endWorker batch crashed).Alike (t.endWorker batch crashed) :=
  ((h.lose _).note _ _).change
    (fun u => { u with
      worker := .gone
      latch := if u.latch = some .worker then none else u.latch }) fun _ _ => rfl

theorem endCycle (h : s.Alike t) (batch : Batch Parcel) (last : Bool) :
    (s.endCycle batch last).Alike (t.endCycle batch last) := by
  cases last with
  | true => exact h.endWorker batch false
  | false => exact h.change (fun u => { u with worker := .ready false batch }) fun _ _ => rfl

theorem sendBatch (h : s.Alike t) (r : Reporter) (batch : Batch Parcel) (last : Bool) :
    (s.sendBatch r batch last).Alike (t.sendBatch r batch last) := by
  obtain ⟨s', t', batch', message, hs, ht, h'⟩ := h.dispatch r batch
  rw [State.sendBatch, State.sendBatch, hs, ht]
  dsimp only
  split
  · exact h'.endCycle batch' last
  · exact h'.change
      (fun u => { u.handOver .worker message with worker := .sending batch' message last })
      fun _ _ => rfl

end Alike

/-- Two turns that get equally far. -/
inductive Fill.Alike : Fill → Fill → Prop
  | waits {s t : State} (h : s.Alike t) : Fill.Alike (.waits s) (.waits t)
  | ends {s t : State} (h : s.Alike t) (batch : Batch Parcel) (last : Bool) :
    Fill.Alike (.over s batch last) (.over t batch last)
  | crashes {s t : State} (h : s.Alike t) (batch : Batch Parcel) :
    Fill.Alike (.crashed s batch) (.crashed t batch)

namespace Alike

theorem filled (h : s.Alike t) (batch : Batch Parcel) (last : Bool)
    (result : Intake Parcel × Drained (Batch Parcel)) :
    (s.filled batch last result).Alike (t.filled batch last result) := by
  have hboard := h.change (fun u => State.board { u with intake := result.1 }
    (result.2.consumer.slots.drop batch.count)) fun _ _ => rfl
  rw [State.filled, State.filled, h.intake_eq]
  split
  · exact .crashes (hboard.change
      (State.spill · ((s.intake.queue.slots.drop result.2.count).take 1)) fun _ _ => rfl) _
  · exact .ends hboard _ _

theorem beginCycle (h : s.Alike t) (batch : Batch Parcel) :
    (s.beginCycle batch).Alike (t.beginCycle batch) := by
  have hdrain : t.intake.beginDrain (Batch.offer t.now) t.now
        (if t.closed then 0 else batch.remaining t.now) batch =
      s.intake.beginDrain (Batch.offer s.now) s.now
        (if s.closed then 0 else batch.remaining s.now) batch := by
    rw [h.intake_eq, h.now_eq, h.closed_eq]
  unfold State.beginCycle
  dsimp only
  rw [hdrain]
  split
  · rw [h.closed_eq]
    exact h.filled batch s.closed _
  · next intake deadline _ =>
    exact .waits (h.change (fun u => { u with intake, worker := .parked batch u.now deadline })
      fun _ _ => rfl)

theorem fill (h : s.Alike t) (r : Reporter) : (s.fill r).Alike (t.fill r) := by
  unfold State.fill
  rw [h.worker_eq, h.intake_eq, h.now_eq]
  split
  · next fresh batch _ =>
    cases fresh with
    | true => exact (h.note _ _).beginCycle batch
    | false => exact h.beginCycle batch
  · next batch _ deadline _ =>
    split
    · exact h.filled batch false _
    · exact .waits h
  · exact .waits h

theorem workerTurn (h : s.Alike t) (r : Reporter) : (s.workerTurn r).Alike (t.workerTurn r) := by
  have hfill := h.fill r
  unfold State.workerTurn
  generalize s.fill r = fills at hfill ⊢
  generalize t.fill r = fillt at hfill ⊢
  cases hfill with
  | waits h' => exact h'
  | ends h' batch last => exact h'.sendBatch r batch last
  | crashes h' batch => exact h'.endWorker batch true

/-- Neither does the worker stop for a harmless outcome, whichever it is. -/
theorem workerSendEnds (h : s.Alike t) (r : Reporter) {outcome other : Outcome}
    (ho : outcome = other ∨ outcome.harmless = true ∧ other.harmless = true) :
    (s.workerSendEnds r outcome).Alike (t.workerSendEnds r other) := by
  cases hw : s.worker with
  | sending batch message last =>
    have hw' : t.worker = .sending batch message last := h.worker_eq.trans hw
    have hends := h.endSend r .worker message outcome other
    rcases ho with rfl | ⟨ho, ho'⟩
    · rw [State.workerSendEnds, State.workerSendEnds, hw, hw']
      cases outcome with
      | sent => exact hends.endCycle batch last
      | crashed => exact hends.endWorker batch true
      | failed error =>
        dsimp only
        split
        · exact (hends.note _ _).endWorker batch false
        · exact hends.endCycle batch last
    · rw [workerSendEnds_of_harmless hw ho, workerSendEnds_of_harmless hw' ho']
      exact hends.endCycle batch last
  | _ =>
    rw [State.workerSendEnds, State.workerSendEnds, h.worker_eq, hw]
    exact h

/-! ### Flushes -/

theorem endFlush (h : s.Alike t) (id : Nat) (batch : Batch Parcel) (error : Option ReporterError) :
    (s.endFlush id batch error).Alike (t.endFlush id batch error) :=
  (h.lose _).finish id _

theorem flush (h : s.Alike t) (r : Reporter) (id : Nat) : (s.flush r id).Alike (t.flush r id) := by
  cases hc : s.closed with
  | true =>
    rw [State.flush, State.flush, if_pos hc, if_pos (h.closed_eq.trans hc)]
    exact h.finish id _
  | false =>
    have hc' : t.closed = false := h.closed_eq.trans hc
    have hdrain : t.flushDrain r = s.flushDrain r := by
      rw [flushDrain, flushDrain, h.intake_eq, h.now_eq]
    obtain ⟨s', t', batch, message, hs, ht, h'⟩ :=
      (h.change (fun u => { u with intake := (s.flushDrain r).1 }) fun _ _ => rfl).dispatch r
        (s.flushDrain r).2.consumer
    unfold flushDrain at hdrain hs ht
    rw [State.flush, State.flush, if_neg (by simp [hc]), if_neg (by simp [hc'])]
    dsimp only
    rw [hdrain, hs, ht]
    dsimp only
    split
    · exact h'.endFlush id batch none
    · exact h'.change (fun u => { u.handOver (.call id) message with
        flushes := u.flushes ++ [⟨id, batch, message⟩] }) fun _ _ => rfl

/-- The flush does not return an error for a harmless outcome, whichever it is. -/
theorem flushSendEnds (h : s.Alike t) (r : Reporter) (id : Nat) {outcome other : Outcome}
    (ho : outcome = other ∨ outcome.harmless = true ∧ other.harmless = true) :
    (s.flushSendEnds r id outcome).Alike (t.flushSendEnds r id other) := by
  have hflushes : t.flushes = s.flushes := h.sees State.flushes fun _ _ => rfl
  cases hf : s.flushes.find? fun f => f.id = id with
  | none =>
    rw [State.flushSendEnds, State.flushSendEnds, hflushes, hf]
    exact h
  | some f =>
    have hf' : (t.flushes.find? fun f => f.id = id) = some f := by rw [hflushes, hf]
    have hends := (h.change
      (fun u => { u with flushes := u.flushes.eraseP fun f => f.id = id }) fun _ _ => rfl).endSend
      r (.call id) f.message outcome other
    rcases ho with rfl | ⟨ho, ho'⟩
    · rw [State.flushSendEnds, State.flushSendEnds, hf, hf']
      cases outcome with
      | sent => exact hends.endFlush id f.batch none
      | crashed => exact hends.finish id .crashed
      | failed error => exact hends.endFlush id f.batch _
    · rw [flushSendEnds_of_harmless hf ho, flushSendEnds_of_harmless hf' ho']
      exact hends.endFlush id f.batch none

/-! ### Closes -/

theorem endClose (h : s.Alike t) (id : Nat) : (s.endClose id).Alike (t.endClose id) := by
  have hcleared := h.change (fun u => { u with intake := u.intake.clear.1 }) fun _ _ => rfl
  have hserials : (t.intake.queue.slots.map fun slot => slot.item.serial) =
      s.intake.queue.slots.map fun slot => slot.item.serial := by rw [h.intake_eq]
  unfold State.endClose
  dsimp only
  rw [hserials]
  split
  · exact ((hcleared.lose _).gauge).finish id _
  · exact (((hcleared.lose _).note _ _).gauge).finish id _

theorem awaitLatch? (h : s.Alike t) (r : Reporter) (id : Nat) (deadline : Instant) :
    Option.Rel State.Alike (s.awaitLatch? r id deadline) (t.awaitLatch? r id deadline) := by
  have hlatch : t.latch = s.latch := h.sees State.latch fun _ _ => rfl
  unfold State.awaitLatch?
  rw [hlatch, h.now_eq]
  split
  · exact .some (h.endClose id)
  · split
    · exact .some ((h.note _ _).endClose id)
    · exact .none

theorem getD {o o' : Option State} (ho : Option.Rel State.Alike o o') (h : s.Alike t) :
    (o.getD s).Alike (o'.getD t) := by
  cases ho with
  | some h' => exact h'
  | none => exact h

theorem close (h : s.Alike t) (r : Reporter) (id : Nat) : (s.close r id).Alike (t.close r id) := by
  cases hc : s.closed with
  | true =>
    rw [State.close, State.close, if_pos hc, if_pos (h.closed_eq.trans hc)]
    exact h.finish id .closed
  | false =>
    have hshut : s.shut.Alike t.shut := h.change shut fun _ _ => rfl
    rw [close_of_open r id hc, close_of_open r id (h.closed_eq.trans hc), h.now_eq]
    refine getD (hshut.awaitLatch? r id _) ?_
    exact hshut.change
      (fun u => { u with closings := u.closings ++ [⟨id, s.now + r.closeTimeout⟩] })
      fun _ _ => rfl

theorem closeTurn (h : s.Alike t) (r : Reporter) (id : Nat) :
    (s.closeTurn r id).Alike (t.closeTurn r id) := by
  have hclosings : t.closings = s.closings := h.sees State.closings fun _ _ => rfl
  unfold State.closeTurn
  rw [hclosings]
  split
  · exact h
  · next c _ =>
    have hawait := h.awaitLatch? r id c.deadline
    generalize s.awaitLatch? r id c.deadline = o at hawait ⊢
    generalize t.awaitLatch? r id c.deadline = o' at hawait ⊢
    cases hawait with
    | some h' =>
      dsimp only
      exact h'.change (fun u => { u with closings := u.closings.eraseP fun c => c.id = id })
        fun _ _ => rfl
    | none => exact h

theorem drop (h : s.Alike t) : s.drop.Alike t.drop := by
  refine h.change State.drop fun u a => ?_
  cases hc : u.closed with
  | true => simp [State.drop, State.releaseLatch, bearing, hc]
  | false => simp [State.drop, State.releaseLatch, bearing, hc]

end Alike

end State

/-! ## Two runs -/

/-- The same event, up to how a send ends that is harmless either way. -/
inductive Event.Twin : Event → Event → Prop
  | same (e : Event) : Event.Twin e e
  | ends (sender : Sender) {outcome other : Outcome} (ho : outcome.harmless = true)
    (ho' : other.harmless = true) : Event.Twin (.sendEnds sender outcome) (.sendEnds sender other)

namespace State

variable {r : Reporter} {s s' t t' : State}

/-- However many sends fail in either run, the states stay alike. -/
theorem Alike.step (h : s.Alike t) (r : Reporter) {e e' : Event} (he : e.Twin e') :
    (s.step r e).Alike (t.step r e') := by
  cases he with
  | same =>
    cases e with
    | report span => exact h.report r span
    | flush id => exact h.flush r id
    | close id => exact h.close r id
    | drop => exact h.drop
    | workerTurn => exact h.workerTurn r
    | closeTurn id => exact h.closeTurn r id
    | sendEnds sender outcome =>
      cases sender with
      | worker => exact h.workerSendEnds r (.inl rfl)
      | call id => exact h.flushSendEnds r id (.inl rfl)
    | pass time => exact h.change (State.step r · (.pass time)) fun _ _ => rfl
  | ends sender ho ho' =>
    cases sender with
    | worker => exact h.workerSendEnds r (.inr ⟨ho, ho'⟩)
    | call id => exact h.flushSendEnds r id (.inr ⟨ho, ho'⟩)

theorem alike_initial (r : Reporter) : (initial r).Alike (initial r) :=
  ⟨initial r, (initial r).toll, (initial r).toll, ⟨.nil, fun _ => rfl, rfl⟩, rfl, rfl⟩

end State

/-- The event as it turns out: how a send ends is not known before it does. -/
def Event.turningOut (e : Event) (outcome : Outcome) : Event :=
  match e with
  | .sendEnds sender _ => .sendEnds sender outcome
  | e => e

theorem Event.twin_turningOut (e : Event) {outcome other : Outcome}
    (h : outcome = other ∨ outcome.harmless = true ∧ other.harmless = true) :
    (e.turningOut outcome).Twin (e.turningOut other) := by
  rcases h with rfl | ⟨ho, ho'⟩
  · exact .same _
  · cases e with
    | sendEnds sender _ => exact .ends sender ho ho'
    | _ => exact .same _

/-- What happens next in a run, after what has happened and in the state that this has led to: a
call, a turn, the end of a send when its time has come, time that passes. It does not depend on
which sends have failed, nor on what this has left behind. -/
structure Driver where
  next : List Event → State → Event
  blind : ∀ {events events' : List Event}, List.Forall₂ Event.Twin events events' →
    ∀ (s : State) (a : Toll), next events' (s.bearing a) = next events s

namespace Driver

/-- So many events of a run and the state after them. Where an event is the end of a send, its place
says how the send ends. -/
def run (d : Driver) (r : Reporter) (fate : Nat → Outcome) : Nat → List Event × State
  | 0 => ([], .initial r)
  | n + 1 =>
    let past := d.run r fate n
    let e := (d.next past.1 past.2).turningOut (fate n)
    (past.1 ++ [e], past.2.step r e)

variable {d : Driver} {r : Reporter} {fate fate' : Nat → Outcome}

theorem reachable_run (d : Driver) (r : Reporter) (fate : Nat → Outcome) (n : Nat) :
    (d.run r fate n).2.Reachable r := by
  induction n with
  | zero => exact State.reachable_initial r
  | succ n ih => exact ih.step _

/-- The runs go on in the same way, whichever sends fail. -/
theorem alike_run
    (h : ∀ n, fate n = fate' n ∨ (fate n).harmless = true ∧ (fate' n).harmless = true) (n : Nat) :
    List.Forall₂ Event.Twin (d.run r fate n).1 (d.run r fate' n).1
      ∧ (d.run r fate n).2.Alike (d.run r fate' n).2 := by
  induction n with
  | zero => exact ⟨.nil, State.alike_initial r⟩
  | succ n ih =>
    obtain ⟨hevents, halike⟩ := ih
    -- the driver chooses the same event in both runs, for it cannot tell them apart
    have hnext : d.next (d.run r fate' n).1 (d.run r fate' n).2 =
        d.next (d.run r fate n).1 (d.run r fate n).2 := by
      obtain ⟨u, a, b, -, hs, ht⟩ := halike
      have hself : List.Forall₂ Event.Twin (d.run r fate n).1 (d.run r fate n).1 :=
        List.forall₂_same.2 fun e _ => .same e
      rw [hs, ht, d.blind hevents u b, d.blind hself u a]
    have htwin := Event.twin_turningOut (d.next (d.run r fate n).1 (d.run r fate n).2) (h n)
    simp only [run, hnext]
    exact ⟨List.rel_append hevents (.cons htwin .nil), halike.step r htwin⟩

end Driver

namespace State

/-- Two runs are driven in the same way, but some of the sends that succeed in one run fail in the
other one, without the transport being closed. At every moment the same has happened in both, but
for how these sends ended, and the states agree in all but the toll: in what was handed over, by
whom and when, in the queue, in what the calls have returned and in all metrics but two. No span is
handed over twice. The spans that one run has lost and the other has not are those in the messages
that failed for it alone. -/
theorem failures_do_not_disturb (r : Reporter) (d : Driver) {fate fate' : Nat → Outcome}
    (h : ∀ n, fate n = fate' n ∨ (fate n).harmless = true ∧ (fate' n).harmless = true) (n : Nat) :
    let s := (d.run r fate n).2
    let t := (d.run r fate' n).2
    List.Forall₂ Event.Twin (d.run r fate n).1 (d.run r fate' n).1
      ∧ t = s.bearing t.toll
      ∧ t.journal.handovers = s.journal.handovers
      ∧ t.intake = s.intake
      ∧ t.returns = s.returns
      ∧ t.metrics = { s.metrics with
          messagesDropped := t.metrics.messagesDropped
          spansDropped := t.metrics.spansDropped }
      ∧ ((s.journal.handovers.flatMap Handover.message).map Parcel.serial).Nodup
      ∧ List.Forall₂ Ending.Twin s.journal.endings t.journal.endings
      ∧ s.metrics.spansDropped
          + UInt64.ofNat (failedOnly t.journal.endings s.journal.endings).length =
        t.metrics.spansDropped
          + UInt64.ofNat (failedOnly s.journal.endings t.journal.endings).length
      ∧ ∀ serial,
        s.journal.lost.count serial
            + (failedOnly t.journal.endings s.journal.endings).count serial =
          t.journal.lost.count serial
            + (failedOnly s.journal.endings t.journal.endings).count serial := by
  intro s t
  obtain ⟨hevents, halike⟩ : _ ∧ s.Alike t := d.alike_run h n
  have honce := (d.reachable_run r fate n).handed_once
  refine ⟨hevents, ?_⟩
  change ((s.journal.handovers.flatMap Handover.message).map Parcel.serial).Nodup at honce
  clear_value s t
  obtain ⟨u, a, b, hab, rfl, rfl⟩ := halike
  exact ⟨rfl, rfl, rfl, rfl, rfl, honce, hab.endings, hab.dropped, hab.lost⟩

end State

/-- Goes through these events, whatever comes of them. -/
def Driver.through (events : List Event) : Driver where
  next past _ := events.getD past.length (.pass 0)
  blind h _ _ := by rw [h.length_eq]

/-- A send of the worker and one of a flush end, then another one of the worker. -/
def Event.mixed : List Event :=
  let span : Span := default
  [.report span, .report span, .report span, .report span, .workerTurn, .pass 1, .workerTurn,
    .report span, .flush 7, .sendEnds .worker .sent, .sendEnds (.call 7) .sent, .close 9,
    .workerTurn, .sendEnds .worker .sent, .closeTurn 9]

/-- In one run the worker's first message fails, in the other one the message of the flush. Both
send the same three messages. -/
theorem State.mixed_runs_agree :
    let s := ((Driver.through Event.mixed).run .tiny
      (fun n => if n = 9 then .failed .timeout else .sent) 15).2
    let t := ((Driver.through Event.mixed).run .tiny
      (fun n => if n = 10 then .failed .timeout else .sent) 15).2
    s.journal.handovers.map (fun h => h.message.map Parcel.serial) = [[0], [3], [2]]
      ∧ t.journal.handovers = s.journal.handovers
      ∧ failedOnly s.journal.endings t.journal.endings = [0]
      ∧ failedOnly t.journal.endings s.journal.endings = [3]
      ∧ s.journal.lost = [1, 4, 0] ∧ t.journal.lost = [1, 4, 3]
      ∧ s.metrics.spansDropped + UInt64.ofNat [3].length =
        t.metrics.spansDropped + UInt64.ofNat [0].length := by
  intro s t
  have hharmless : ∀ k n : Nat,
      Outcome.harmless (if n = k then .failed .timeout else .sent) = true := by
    intro k n
    split
    · rfl
    · rfl
  obtain ⟨-, -, handovers, -, -, -, -, -, dropped, -⟩ :=
    failures_do_not_disturb .tiny (.through Event.mixed)
      (fun n => .inr ⟨hharmless 9 n, hharmless 10 n⟩) 15
  have hs : failedOnly s.journal.endings t.journal.endings = [0] := by decide +kernel
  have ht : failedOnly t.journal.endings s.journal.endings = [3] := by decide +kernel
  refine ⟨by decide +kernel, handovers, hs, ht, by decide +kernel, by decide +kernel, ?_⟩
  rw [← hs, ← ht]
  exact dropped

end SpanCourier
