import SpanCourier.Proofs.Reporter.Moves

set_option autoImplicit false

/-! # What a close leaves behind

The worker and the flushes report and queue nothing, and they do not touch the calls to close
(`State.Serves`). So once a reporter is closed and no close waits any more, its queue is
empty and stays so (`State.Cleared`). Dropping the reporter is another matter: it closes without
looking at the queue.
-/

namespace SpanCourier

/-- From one state to the other nothing was reported or queued, and no close was called or came to
an end. -/
structure State.Serves (s s' : State) : Prop where
  reported_eq : s'.journal.reported = s.journal.reported
  closed_eq : s'.closed = s.closed
  closings_eq : s'.closings = s.closings
  returns_eq : ∃ more, s'.returns = s.returns ++ more ∧ ∀ ret ∈ more, ret.result ≠ .closed
  queue_eq : ∃ taken, s.intake.queue.slots = taken ++ s'.intake.queue.slots

namespace State.Serves

variable {r : Reporter} {s s₁ s' : State}

theorem of_eq (hj : s'.journal.reported = s.journal.reported) (hc : s'.closed = s.closed)
    (hg : s'.closings = s.closings) (hr : s'.returns = s.returns)
    (hq : s'.intake.queue.slots = s.intake.queue.slots) : s.Serves s' :=
  ⟨hj, hc, hg, ⟨[], by rw [hr, List.append_nil], by simp⟩, ⟨[], by rw [hq, List.nil_append]⟩⟩

theorem refl (s : State) : s.Serves s := of_eq rfl rfl rfl rfl rfl

theorem trans (h : s.Serves s₁) (h' : s₁.Serves s') : s.Serves s' := by
  obtain ⟨more, hr, hmore⟩ := h.returns_eq
  obtain ⟨more', hr', hmore'⟩ := h'.returns_eq
  obtain ⟨taken, hq⟩ := h.queue_eq
  obtain ⟨taken', hq'⟩ := h'.queue_eq
  refine ⟨h'.reported_eq.trans h.reported_eq, h'.closed_eq.trans h.closed_eq,
    h'.closings_eq.trans h.closings_eq, ⟨more ++ more', ?_, ?_⟩, ⟨taken ++ taken', ?_⟩⟩
  · rw [hr', hr, List.append_assoc]
  · intro ret hmem
    rcases List.mem_append.1 hmem with hmem | hmem
    · exact hmore ret hmem
    · exact hmore' ret hmem
  · rw [hq, hq', List.append_assoc]

theorem lose (s : State) (serials : List Nat) : s.Serves (s.lose serials) := by
  rw [lose_eq]
  exact of_eq rfl rfl rfl rfl rfl

theorem endWorker (s : State) (batch : Batch Parcel) (crashed : Bool) :
    s.Serves (s.endWorker batch crashed) := by
  rw [endWorker_eq]
  exact of_eq rfl rfl rfl rfl rfl

theorem endCycle (s : State) (batch : Batch Parcel) (last : Bool) :
    s.Serves (s.endCycle batch last) := by
  cases last with
  | true => exact endWorker s batch false
  | false => exact of_eq rfl rfl rfl rfl rfl

theorem sendBatch (r : Reporter) (s : State) (batch : Batch Parcel) (last : Bool) :
    s.Serves (s.sendBatch r batch last) := by
  obtain ⟨s', batch', message, hd, hs⟩ := sendBatch_cases r s batch last
  obtain ⟨metrics, notices, lost, rfl⟩ := dispatch_frame hd
  have h₁ : s.Serves { s with metrics, notices, journal := { s.journal with lost } } :=
    of_eq rfl rfl rfl rfl rfl
  rcases hs with ⟨-, hs⟩ | ⟨-, hs⟩
  · rw [hs]
    exact h₁.trans (endCycle _ batch' last)
  · rw [hs]
    exact of_eq rfl rfl rfl rfl rfl

theorem workerTurn (r : Reporter) (s : State) : s.Serves (s.workerTurn r) := by
  rcases workerTurn_cases r s with hs | ⟨fresh, batch, notices, -, -, -, hs⟩ |
    ⟨batch, batch', taken, left, signal, notices, last, -, hq, -, -, hs⟩ |
    ⟨batch, slot, left, signal, notices, -, hspill, hs⟩
  · rw [hs]
    exact refl s
  · rw [hs]
    exact of_eq rfl rfl rfl rfl rfl
  · have h₁ : s.Serves ({ s with notices }.drained taken left signal) :=
      ⟨rfl, rfl, rfl, ⟨[], by rw [List.append_nil]; rfl, by simp⟩, ⟨taken, hq⟩⟩
    rw [hs]
    exact h₁.trans (sendBatch r _ batch' last)
  · rw [hs]
    exact ⟨rfl, rfl, rfl, ⟨[], by rw [List.append_nil], by simp⟩, ⟨[slot], hspill.queue_eq⟩⟩

theorem endSend (r : Reporter) (s : State) (sender : Sender) (message : List Parcel)
    (outcome : Outcome) : s.Serves (s.endSend r sender message outcome) := by
  obtain ⟨metrics, notices, warned, endings, lost, hs⟩ := endSend_frame r s sender message outcome
  rw [hs]
  exact of_eq rfl rfl rfl rfl rfl

theorem workerSendEnds (r : Reporter) (s : State) (outcome : Outcome) :
    s.Serves (s.workerSendEnds r outcome) := by
  rcases workerSendEnds_cases r s outcome with hs | ⟨batch, message, last, -, hs⟩
  · rw [hs]
    exact refl s
  · have h₁ := endSend r s .worker message outcome
    rcases hs with ⟨-, hs⟩ | ⟨notices, crashed, hs⟩
    · rw [hs]
      exact h₁.trans (endCycle _ batch last)
    · have h₂ : (s.endSend r .worker message outcome).Serves
          { s.endSend r .worker message outcome with notices } := of_eq rfl rfl rfl rfl rfl
      rw [hs]
      exact (h₁.trans h₂).trans (endWorker _ batch crashed)

theorem finish (s : State) (id : Nat) {result : CallResult} (h : result ≠ .closed) :
    s.Serves (s.finish id result) := by
  refine ⟨rfl, rfl, rfl, ⟨[⟨id, s.now, result⟩], rfl, ?_⟩, ⟨[], rfl⟩⟩
  intro ret hmem
  rw [List.mem_singleton] at hmem
  rw [hmem]
  exact h

theorem endFlush (s : State) (id : Nat) (batch : Batch Parcel) (error : Option ReporterError) :
    s.Serves (s.endFlush id batch error) := by
  have hresult : CallResult.flushed error ≠ .closed := by simp
  exact (lose s _).trans (finish _ id hresult)

theorem flush (r : Reporter) (s : State) (id : Nat) : s.Serves (s.flush r id) := by
  rcases flush_cases r s id with
    ⟨-, hs⟩ | ⟨-, batch, left, signal, s', batch', message, hq, hd, hs⟩
  · rw [hs]
    exact finish s id (by simp)
  · obtain ⟨metrics, notices, lost, rfl⟩ := dispatch_frame hd
    have h₁ : s.Serves { s with
        metrics, notices
        journal := { s.journal with lost }
        intake :=
          { queue := { s.intake.queue with
              slots := left, bytes := s.intake.queue.bytes - Slot.total batch.slots }
            signal } } :=
      ⟨rfl, rfl, rfl, ⟨[], by rw [List.append_nil], by simp⟩, ⟨batch.slots, hq⟩⟩
    rcases hs with ⟨-, hs⟩ | ⟨-, hs⟩
    · rw [hs]
      exact h₁.trans (endFlush _ id batch' none)
    · rw [hs]
      exact h₁.trans (of_eq rfl rfl rfl rfl rfl)

theorem flushSendEnds (r : Reporter) (s : State) (id : Nat) (outcome : Outcome) :
    s.Serves (s.flushSendEnds r id outcome) := by
  rcases flushSendEnds_cases r s id outcome with hs | ⟨f, before, after, s', -, -, rfl, hs⟩
  · rw [hs]
    exact refl s
  · have h₁ : s.Serves { s with flushes := before ++ after } := of_eq rfl rfl rfl rfl rfl
    have h₂ := h₁.trans (endSend r _ (.call id) f.message outcome)
    rcases hs with ⟨-, hs⟩ | ⟨-, error, hs⟩
    · rw [hs]
      exact h₂.trans (finish _ id (by simp))
    · rw [hs]
      exact h₂.trans (endFlush _ id f.batch error)

end State.Serves

/-! ## The queue of a closed reporter -/

/-- Once the reporter is closed and no close waits any more, the queue is empty; and a close waits
or has returned only if the reporter is closed. -/
structure State.Cleared (s : State) : Prop where
  empty : s.closed = true → s.closings = [] → s.intake.queue.slots = []
  closed_of_closing : s.closings ≠ [] → s.closed = true
  closed_of_return : ∀ ret ∈ s.returns, ret.result = .closed → s.closed = true

namespace State.Cleared

variable {r : Reporter} {s s' : State}

theorem initial (r : Reporter) : (State.initial r).Cleared :=
  ⟨fun _ _ => rfl, fun hg => absurd rfl hg, fun ret hmem => by simp [State.initial] at hmem⟩

/-- A closed reporter with an empty queue. -/
theorem of_empty (hc : s.closed = true) (hq : s.intake.queue.slots = []) : s.Cleared :=
  ⟨fun _ _ => hq, fun _ => hc, fun _ _ _ => hc⟩

theorem of_serves (h : s.Cleared) (hs : s.Serves s') : s'.Cleared := by
  refine ⟨fun hc hg => ?_, fun hg => ?_, fun ret hmem hret => ?_⟩
  · -- of an empty queue nothing is left either
    obtain ⟨taken, hq⟩ := hs.queue_eq
    rw [h.empty (hs.closed_eq ▸ hc) (hs.closings_eq ▸ hg)] at hq
    exact (List.append_eq_nil_iff.1 hq.symm).2
  · rw [hs.closed_eq]
    exact h.closed_of_closing (hs.closings_eq ▸ hg)
  · obtain ⟨more, hr, hmore⟩ := hs.returns_eq
    rw [hr] at hmem
    rw [hs.closed_eq]
    rcases List.mem_append.1 hmem with hmem | hmem
    · exact h.closed_of_return ret hmem hret
    · exact absurd hret (hmore ret hmem)

/-- The queue of an open reporter does not matter. -/
theorem of_open (h : s.Cleared) (ho : s.closed = false) (hc : s'.closed = s.closed)
    (hg : s'.closings = s.closings) (hr : s'.returns = s.returns) : s'.Cleared := by
  refine ⟨fun hc' => ?_, ?_, ?_⟩
  · rw [hc, ho] at hc'
    cases hc'
  · rw [hc, hg]
    exact h.closed_of_closing
  · rw [hc, hr]
    exact h.closed_of_return

theorem report (h : s.Cleared) (r : Reporter) (span : Span) : (s.report r span).Cleared := by
  obtain ⟨started, latch, worker, hs⟩ := startWorker_frame r s
  rcases report_cases r s span with ⟨-, hr⟩ | ⟨hj, intake, -, hr⟩
  · rw [hr, lose_eq, hs]
    exact ⟨h.empty, h.closed_of_closing, h.closed_of_return⟩
  · -- only an open reporter queues a span
    have hc : s.closed = false := (Bool.or_eq_false_iff.1 hj).1
    rw [hr, hs]
    exact h.of_open hc rfl rfl rfl

theorem close (h : s.Cleared) (r : Reporter) (id : Nat) : (s.close r id).Cleared := by
  rcases close_cases r s id with ⟨hc, hs⟩ | ⟨-, notices, hs⟩ | ⟨-, hs⟩
  · rw [hs]
    exact ⟨h.empty, fun _ => hc, fun _ _ _ => hc⟩
  · rw [hs, endClose_eq]
    exact of_empty rfl rfl
  · -- the close waits, so nothing is claimed of the queue yet
    rw [hs]
    exact ⟨fun _ hg => absurd hg (by simp), fun _ => rfl, fun _ _ _ => rfl⟩

theorem closeTurn (h : s.Cleared) (r : Reporter) (id : Nat) : (s.closeTurn r id).Cleared := by
  rcases closeTurn_cases r s id with hs | ⟨c, notices, hmem, -, -, hs⟩
  · rw [hs]
    exact h
  · have hc : s.closed = true := h.closed_of_closing (List.ne_nil_of_mem hmem)
    rw [hs, endClose_eq]
    exact of_empty hc rfl

/-- Every event but the drop of the reporter keeps the queue of a closed reporter in order. -/
theorem step (h : s.Cleared) (r : Reporter) {e : Event} (he : e ≠ .drop) :
    (s.step r e).Cleared := by
  cases e with
  | report span => exact h.report r span
  | flush id => exact h.of_serves (.flush r s id)
  | close id => exact h.close r id
  | drop => exact absurd rfl he
  | workerTurn => exact h.of_serves (.workerTurn r s)
  | closeTurn id => exact h.closeTurn r id
  | sendEnds sender outcome =>
    cases sender with
    | worker => exact h.of_serves (.workerSendEnds r s outcome)
    | call id => exact h.of_serves (.flushSendEnds r s id outcome)
  | pass time => exact h.of_serves (.of_eq rfl rfl rfl rfl rfl)

end State.Cleared

/-! ## What closes a reporter -/

/-- A close, or the drop of the reporter. -/
def Event.closes : Event → Bool
  | .close _ => true
  | .drop => true
  | _ => false

/-- Nothing else closes the reporter, and nothing opens it again. -/
theorem State.closed_step (r : Reporter) (s : State) (e : Event) :
    (s.step r e).closed = (s.closed || e.closes) := by
  have of_eq : ∀ {s' : State}, s'.closed = s.closed → s'.closed = (s.closed || false) :=
    fun h => h.trans (Bool.or_false _).symm
  cases e with
  | report span =>
    obtain ⟨started, latch, worker, hstart⟩ := startWorker_frame r s
    rcases report_cases r s span with ⟨-, hr⟩ | ⟨-, intake, -, hr⟩
    · rw [step, hr, lose_eq, hstart]
      exact of_eq rfl
    · rw [step, hr, hstart]
      exact of_eq rfl
  | flush id => exact of_eq (Serves.flush r s id).closed_eq
  | close id =>
    rw [Event.closes, Bool.or_true]
    rcases close_cases r s id with ⟨hc, hs⟩ | ⟨-, notices, hs⟩ | ⟨-, hs⟩
    · rw [step, hs]
      exact hc
    · rw [step, hs, endClose_eq]
      rfl
    · rw [step, hs]
      rfl
  | drop =>
    rw [Event.closes, Bool.or_true, step, drop]
    split
    · next hc => exact hc
    · rfl
  | workerTurn => exact of_eq (Serves.workerTurn r s).closed_eq
  | closeTurn id =>
    rcases closeTurn_cases r s id with hs | ⟨c, notices, -, -, -, hs⟩
    · rw [step, hs]
      exact of_eq rfl
    · rw [step, hs, endClose_eq]
      exact of_eq rfl
  | sendEnds sender outcome =>
    cases sender with
    | worker => exact of_eq (Serves.workerSendEnds r s outcome).closed_eq
    | call id => exact of_eq (Serves.flushSendEnds r s id outcome).closed_eq
  | pass time => exact of_eq rfl

/-- A closed reporter stays closed. -/
theorem State.closed_step_of_closed {s : State} (h : s.closed = true) (r : Reporter) (e : Event) :
    (s.step r e).closed = true := by
  rw [closed_step, h, Bool.true_or]

/-- A worker that counts as started goes on counting as started. -/
theorem State.started_step {s : State} (h : s.started = true) (r : Reporter) (e : Event) :
    (s.step r e).started = true := by
  cases e with
  | report span =>
    have hstart : s.startWorker r = s := by rw [startWorker, if_pos h]
    rcases report_cases r s span with ⟨-, hr⟩ | ⟨-, intake, -, hr⟩
    · rw [step, hr, lose_eq, hstart]
      exact h
    · rw [step, hr, hstart]
      exact h
  | flush id =>
    obtain ⟨_, _, _, _, _, _, hs⟩ := flush_frame r s id
    rw [step, hs]
    exact h
  | close id =>
    rcases close_cases r s id with ⟨-, hs⟩ | ⟨-, notices, hs⟩ | ⟨-, hs⟩
    · rw [step, hs]
      exact h
    · rw [step, hs, endClose_eq]
      rfl
    · rw [step, hs]
      rfl
  | drop =>
    rw [step, drop]
    split
    · exact h
    · exact h
  | workerTurn =>
    obtain ⟨_, _, _, _, _, _, hs⟩ := workerTurn_frame r s
    rw [step, hs]
    exact h
  | closeTurn id =>
    rcases closeTurn_cases r s id with hs | ⟨c, notices, -, -, -, hs⟩
    · rw [step, hs]
      exact h
    · rw [step, hs, endClose_eq]
      exact h
  | sendEnds sender outcome =>
    cases sender with
    | worker =>
      obtain ⟨_, _, _, _, _, _, _, hs⟩ := workerSendEnds_frame r s outcome
      rw [step, hs]
      exact h
    | call id =>
      obtain ⟨_, _, _, _, _, _, _, hs⟩ := flushSendEnds_frame r s id outcome
      rw [step, hs]
      exact h
  | pass time => exact h

/-- At an open reporter no close waits, and none has returned. -/
theorem State.Reachable.no_close_of_open {r : Reporter} {s : State} (h : s.Reachable r) :
    s.closed = false → s.closings = [] ∧ ∀ ret ∈ s.returns, ret.result ≠ .closed := by
  refine h.induction (P := fun s => s.closed = false →
    s.closings = [] ∧ ∀ ret ∈ s.returns, ret.result ≠ .closed) (fun _ => ⟨rfl, nofun⟩) ?_
  intro s e hs hopen
  rw [closed_step, Bool.or_eq_false_iff] at hopen
  obtain ⟨hclosings, hreturns⟩ := hs hopen.1
  have of_serves : ∀ {s' : State}, s.Serves s' →
      s'.closings = [] ∧ ∀ ret ∈ s'.returns, ret.result ≠ .closed := by
    intro s' hserves
    obtain ⟨more, hr, hmore⟩ := hserves.returns_eq
    refine ⟨hserves.closings_eq.trans hclosings, ?_⟩
    rw [hr]
    exact List.forall_mem_append.2 ⟨hreturns, hmore⟩
  cases e with
  | report span =>
    obtain ⟨started, latch, worker, hstart⟩ := startWorker_frame r s
    rcases report_cases r s span with ⟨-, hr⟩ | ⟨-, intake, -, hr⟩
    · rw [State.step, hr, lose_eq, hstart]
      exact ⟨hclosings, hreturns⟩
    · rw [State.step, hr, hstart]
      exact ⟨hclosings, hreturns⟩
  | flush id => exact of_serves (.flush r s id)
  | close id => cases hopen.2
  | drop => cases hopen.2
  | workerTurn => exact of_serves (.workerTurn r s)
  | closeTurn id =>
    rcases closeTurn_cases r s id with hr | ⟨c, notices, hmem, -, -, -⟩
    · rw [State.step, hr]
      exact ⟨hclosings, hreturns⟩
    · rw [hclosings] at hmem
      cases hmem
  | sendEnds sender outcome =>
    cases sender with
    | worker => exact of_serves (.workerSendEnds r s outcome)
    | call id => exact of_serves (.flushSendEnds r s id outcome)
  | pass time => exact ⟨hclosings, hreturns⟩

/-- A close waits only at a closed reporter, even at one that was dropped. -/
theorem State.Reachable.closed_of_closing {r : Reporter} {s : State} (h : s.Reachable r)
    (hg : s.closings ≠ []) : s.closed = true := by
  cases hc : s.closed with
  | true => rfl
  | false => exact absurd (h.no_close_of_open hc).1 hg

/-! ## What was reported -/

/-- The span that an event reports. -/
def Event.span? : Event → Option Span
  | .report span => some span
  | _ => none

namespace State

theorem reported_report (r : Reporter) (s : State) (span : Span) :
    (s.report r span).journal.reported = s.journal.reported ++ [span] := by
  obtain ⟨started, latch, worker, hs⟩ := startWorker_frame r s
  rcases report_cases r s span with ⟨-, hr⟩ | ⟨-, intake, -, hr⟩
  · rw [hr, lose_eq, hs]
    rfl
  · rw [hr, hs]
    rfl

theorem reported_close (r : Reporter) (s : State) (id : Nat) :
    (s.close r id).journal.reported = s.journal.reported := by
  rcases close_cases r s id with ⟨-, hs⟩ | ⟨-, notices, hs⟩ | ⟨-, hs⟩
  · rw [hs]
    rfl
  · rw [hs, endClose_eq]
    rfl
  · rw [hs]
    rfl

theorem reported_closeTurn (r : Reporter) (s : State) (id : Nat) :
    (s.closeTurn r id).journal.reported = s.journal.reported := by
  rcases closeTurn_cases r s id with hs | ⟨c, notices, -, -, -, hs⟩
  · rw [hs]
  · rw [hs, endClose_eq]

theorem reported_drop (s : State) : s.drop.journal.reported = s.journal.reported := by
  rw [drop]
  split
  · rfl
  · rfl

/-- Every event writes down the span that it reports, and no other. -/
theorem reported_step (r : Reporter) (s : State) (e : Event) :
    (s.step r e).journal.reported = s.journal.reported ++ e.span?.toList := by
  cases e with
  | report span => exact reported_report r s span
  | flush id => simpa [Event.span?, step] using (Serves.flush r s id).reported_eq
  | close id => simpa [Event.span?, step] using reported_close r s id
  | drop => simpa [Event.span?, step] using reported_drop s
  | workerTurn => simpa [Event.span?, step] using (Serves.workerTurn r s).reported_eq
  | closeTurn id => simpa [Event.span?, step] using reported_closeTurn r s id
  | sendEnds sender outcome =>
    cases sender with
    | worker => simpa [Event.span?, step] using (Serves.workerSendEnds r s outcome).reported_eq
    | call id => simpa [Event.span?, step] using (Serves.flushSendEnds r s id outcome).reported_eq
  | pass time => simp [Event.span?, step]

end State

end SpanCourier
