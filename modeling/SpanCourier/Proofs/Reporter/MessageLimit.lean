import SpanCourier.Proofs.Reporter.Moves

set_option autoImplicit false

/-! # No message is above its limit

Whatever the size functions of the transport are like, a message that is handed to it is not empty
and, as the transport itself sizes it, within the limit of the reporter; and a reporter that was
built has a limit that is not above the transport's own. `State.HandsOver` says what a step may hand
over, and everything else follows from that.
-/

namespace SpanCourier

/-! ## The reporter that is built -/

/-- Building settles the transport and the limit of messages. -/
theorem Order.build_ok {order : Order} {r : Reporter} (h : order.build = .ok r) :
    r.transport = order.transport ∧ r.messageMaxBytes = order.messageMaxBytes := by
  obtain ⟨-, -, -, rfl⟩ := eq_of_build h
  exact ⟨rfl, rfl⟩

/-! ## What a step hands over -/

/-- A message that may be sent: it is not empty, and it is small enough. -/
def Reporter.Sendable (r : Reporter) (message : List Parcel) : Prop :=
  message ≠ [] ∧ r.carries message = true

/-- What a step does at the door of the transport: it hands over nothing, and only ends what was
under way; or it hands over a message of the worker or of a flush, which then is under way. -/
inductive State.HandsOver (r : Reporter) (s s' : State) : Prop
  | nothing (handovers : s'.journal.handovers = s.journal.handovers)
      (worker : s'.worker = s.worker ∨ s'.worker.pending = [])
      (flushes : s'.flushes.Sublist s.flushes)
  | ofWorker (message : List Parcel) (sendable : r.Sendable message)
      (handovers : s'.journal.handovers = s.journal.handovers ++ [⟨.worker, message, s.now⟩])
      (pending : s'.worker.pending = message) (flushes : s'.flushes = s.flushes)
  | ofFlush (f : Flush) (sendable : r.Sendable f.message)
      (handovers :
        s'.journal.handovers = s.journal.handovers ++ [⟨.call f.id, f.message, s.now⟩])
      (worker : s'.worker = s.worker) (flushes : s'.flushes = s.flushes ++ [f])

namespace State

variable {r : Reporter} {s s₁ s' : State}

/-- Packing makes no message, or one that may be sent. -/
theorem sendable_of_dispatch {batch batch' : Batch Parcel} {message : List Parcel}
    (h : s.dispatch r batch = (s', batch', message)) (hm : message ≠ []) :
    r.Sendable message := by
  cases hp : s.packs batch with
  | false =>
    rw [dispatch_of_not_packs hp] at h
    cases h
    exact absurd rfl hm
  | true =>
    obtain ⟨full, left, overflow, he, -⟩ := dispatch_of_packs r hp
    rw [he] at h
    cases h
    exact ⟨hm, longestFit_fits hm⟩

namespace HandsOver

/-- Nothing at the door has changed before the step. -/
theorem of_eq (h : s₁.HandsOver r s') (hh : s₁.journal.handovers = s.journal.handovers)
    (hw : s₁.worker = s.worker) (hf : s₁.flushes = s.flushes) (hn : s₁.now = s.now) :
    s.HandsOver r s' := by
  cases h with
  | nothing handovers worker flushes =>
    exact .nothing (hh ▸ handovers) (hw ▸ worker) (hf ▸ flushes)
  | ofWorker message sendable handovers pending flushes =>
    exact .ofWorker message sendable (hh ▸ hn ▸ handovers) pending (hf ▸ flushes)
  | ofFlush f sendable handovers worker flushes =>
    exact .ofFlush f sendable (hh ▸ hn ▸ handovers) (hw ▸ worker) (hf ▸ flushes)

theorem refl (r : Reporter) (s : State) : s.HandsOver r s :=
  .nothing rfl (.inl rfl) (List.Sublist.refl _)

theorem report (r : Reporter) (s : State) (span : Span) : s.HandsOver r (s.report r span) := by
  have hw : (s.startWorker r).worker = s.worker ∨ (s.startWorker r).worker.pending = [] := by
    rcases startWorker_cases r s with ⟨-, hs⟩ | ⟨-, -, hs⟩ | ⟨-, -, hs⟩
    · exact .inl (by rw [hs])
    · exact .inl (by rw [hs])
    · exact .inr (by rw [hs]; rfl)
  obtain ⟨started, latch, worker, hs⟩ := startWorker_frame r s
  rw [hs] at hw
  rcases report_cases r s span with ⟨-, hr⟩ | ⟨-, intake, -, hr⟩
  · rw [hr, lose_eq, hs]
    exact .nothing rfl hw (List.Sublist.refl _)
  · rw [hr, hs]
    exact .nothing rfl hw (List.Sublist.refl _)

theorem endWorker (r : Reporter) (s : State) (batch : Batch Parcel) (crashed : Bool) :
    s.HandsOver r (s.endWorker batch crashed) := by
  rw [endWorker_eq]
  exact .nothing rfl (.inr rfl) (List.Sublist.refl _)

theorem endCycle (r : Reporter) (s : State) (batch : Batch Parcel) (last : Bool) :
    s.HandsOver r (s.endCycle batch last) := by
  cases last with
  | false => exact .nothing rfl (.inr rfl) (List.Sublist.refl _)
  | true => exact endWorker r s batch false

theorem sendBatch (r : Reporter) (s : State) (batch : Batch Parcel) (last : Bool) :
    s.HandsOver r (s.sendBatch r batch last) := by
  obtain ⟨s', batch', message, hd, hs⟩ := sendBatch_cases r s batch last
  have hsend := sendable_of_dispatch hd
  obtain ⟨metrics, notices, lost, rfl⟩ := dispatch_frame hd
  rcases hs with ⟨-, hs⟩ | ⟨hm, hs⟩
  · rw [hs]
    exact (endCycle r _ batch' last).of_eq rfl rfl rfl rfl
  · rw [hs]
    exact .ofWorker message (hsend hm) rfl rfl rfl

theorem workerTurn (r : Reporter) (s : State) : s.HandsOver r (s.workerTurn r) := by
  rcases workerTurn_cases r s with hs | ⟨fresh, batch, notices, -, -, -, hs⟩ |
    ⟨batch, batch', taken, left, signal, notices, last, -, -, -, -, hs⟩ |
    ⟨batch, slot, left, signal, notices, -, -, hs⟩
  · rw [hs]
    exact refl r s
  · rw [hs]
    exact .nothing rfl (.inr rfl) (List.Sublist.refl _)
  · rw [hs]
    exact (sendBatch r _ batch' last).of_eq rfl rfl rfl rfl
  · rw [hs]
    exact .nothing rfl (.inr rfl) (List.Sublist.refl _)

theorem workerSendEnds (r : Reporter) (s : State) (outcome : Outcome) :
    s.HandsOver r (s.workerSendEnds r outcome) := by
  rcases workerSendEnds_cases r s outcome with hs | ⟨batch, message, last, -, hs⟩
  · rw [hs]
    exact refl r s
  · obtain ⟨_, _, _, _, _, he⟩ := endSend_frame r s .worker message outcome
    rw [he] at hs
    rcases hs with ⟨-, hs⟩ | ⟨notices, crashed, hs⟩
    · rw [hs]
      exact (endCycle r _ batch last).of_eq rfl rfl rfl rfl
    · rw [hs]
      exact (endWorker r _ batch crashed).of_eq rfl rfl rfl rfl

theorem flush (r : Reporter) (s : State) (id : Nat) : s.HandsOver r (s.flush r id) := by
  rcases flush_cases r s id with
    ⟨-, hs⟩ | ⟨-, batch, left, signal, s', batch', message, -, hd, hs⟩
  · rw [hs]
    exact .nothing rfl (.inl rfl) (List.Sublist.refl _)
  · have hsend := sendable_of_dispatch hd
    obtain ⟨metrics, notices, lost, rfl⟩ := dispatch_frame hd
    rcases hs with ⟨-, hs⟩ | ⟨hm, hs⟩
    · rw [hs, endFlush_eq]
      exact .nothing rfl (.inl rfl) (List.Sublist.refl _)
    · rw [hs]
      exact .ofFlush ⟨id, batch', message⟩ (hsend hm) rfl rfl rfl

theorem flushSendEnds (r : Reporter) (s : State) (id : Nat) (outcome : Outcome) :
    s.HandsOver r (s.flushSendEnds r id outcome) := by
  rcases flushSendEnds_cases r s id outcome with
    hs | ⟨f, before, after, s', hflushes, -, rfl, hs⟩
  · rw [hs]
    exact refl r s
  · have hsub : (before ++ after).Sublist s.flushes := by
      rw [hflushes]
      exact (List.Sublist.refl before).append (List.sublist_cons_self f after)
    obtain ⟨_, _, _, _, _, he⟩ :=
      endSend_frame r { s with flushes := before ++ after } (.call id) f.message outcome
    rw [he] at hs
    rcases hs with ⟨-, hs⟩ | ⟨-, error, hs⟩
    · rw [hs]
      exact .nothing rfl (.inl rfl) hsub
    · rw [hs, endFlush_eq]
      exact .nothing rfl (.inl rfl) hsub

theorem close (r : Reporter) (s : State) (id : Nat) : s.HandsOver r (s.close r id) := by
  rcases close_cases r s id with ⟨-, hs⟩ | ⟨-, notices, hs⟩ | ⟨-, hs⟩
  · rw [hs]
    exact .nothing rfl (.inl rfl) (List.Sublist.refl _)
  · rw [hs, endClose_eq]
    exact .nothing rfl (.inl rfl) (List.Sublist.refl _)
  · rw [hs]
    exact .nothing rfl (.inl rfl) (List.Sublist.refl _)

theorem closeTurn (r : Reporter) (s : State) (id : Nat) : s.HandsOver r (s.closeTurn r id) := by
  rcases closeTurn_cases r s id with hs | ⟨c, notices, -, -, -, hs⟩
  · rw [hs]
    exact refl r s
  · rw [hs, endClose_eq]
    exact .nothing rfl (.inl rfl) (List.Sublist.refl _)

theorem drop (r : Reporter) (s : State) : s.HandsOver r s.drop := by
  rw [State.drop]
  split
  · exact .nothing rfl (.inl rfl) (List.Sublist.refl _)
  · exact .nothing rfl (.inl rfl) (List.Sublist.refl _)

/-- A step hands over at most one message, and only one that may be sent. -/
theorem step (r : Reporter) (s : State) (e : Event) : s.HandsOver r (s.step r e) := by
  cases e with
  | report span => exact report r s span
  | flush id => exact flush r s id
  | close id => exact close r s id
  | drop => exact drop r s
  | workerTurn => exact workerTurn r s
  | closeTurn id => exact closeTurn r s id
  | sendEnds sender outcome =>
    cases sender with
    | worker => exact workerSendEnds r s outcome
    | call id => exact flushSendEnds r s id outcome
  | pass time => exact .nothing rfl (.inl rfl) (List.Sublist.refl _)

end HandsOver

/-! ## Messages of a run -/

/-- Every message that was handed over may be sent, and every message that is under way was handed
over by the one that has it there. -/
structure Handed (r : Reporter) (s : State) : Prop where
  sendable : ∀ h ∈ s.journal.handovers, r.Sendable h.message
  worker : s.worker.pending ≠ [] →
    ∃ h ∈ s.journal.handovers, h.sender = .worker ∧ h.message = s.worker.pending
  flushes : ∀ f ∈ s.flushes,
    ∃ h ∈ s.journal.handovers, h.sender = .call f.id ∧ h.message = f.message

namespace Handed

theorem initial (r : Reporter) : (State.initial r).Handed r := by
  refine ⟨?_, fun hp => absurd rfl hp, ?_⟩
  · intro h hmem
    cases hmem
  · intro f hmem
    cases hmem

/-- One more message is handed over, and nothing else comes under way. -/
theorem of_append (h : s.Handed r) {last : Handover} (hl : r.Sendable last.message)
    (hh : s'.journal.handovers = s.journal.handovers ++ [last])
    (hw : s'.worker = s.worker ∨ last.sender = .worker ∧ last.message = s'.worker.pending)
    (hf : ∀ f ∈ s'.flushes, f ∈ s.flushes ∨ last.sender = .call f.id ∧ last.message = f.message) :
    s'.Handed r := by
  have hlast : last ∈ s'.journal.handovers := by
    rw [hh]
    exact List.mem_append_right _ (List.mem_singleton_self _)
  have earlier : ∀ h' ∈ s.journal.handovers, h' ∈ s'.journal.handovers := by
    intro h' hmem
    rw [hh]
    exact List.mem_append_left _ hmem
  constructor
  · intro h' hmem
    rw [hh, List.mem_append, List.mem_singleton] at hmem
    rcases hmem with hmem | rfl
    · exact h.sendable h' hmem
    · exact hl
  · intro hp
    -- what was under way was handed over before, and the rest is the new message
    rcases hw with hw | hw
    · rw [hw] at hp ⊢
      obtain ⟨h', hmem, hsame⟩ := h.worker hp
      exact ⟨h', earlier h' hmem, hsame⟩
    · exact ⟨last, hlast, hw⟩
  · intro f hmem
    rcases hf f hmem with hmem | hsame
    · obtain ⟨h', hmem', hsame⟩ := h.flushes f hmem
      exact ⟨h', earlier h' hmem', hsame⟩
    · exact ⟨last, hlast, hsame⟩

theorem of_handsOver (h : s.Handed r) (hs : s.HandsOver r s') : s'.Handed r := by
  cases hs with
  | nothing handovers worker flushes =>
    constructor
    · rw [handovers]
      exact h.sendable
    · intro hp
      have hw : s'.worker = s.worker := worker.resolve_right hp
      rw [hw] at hp
      rw [hw, handovers]
      exact h.worker hp
    · intro f hmem
      rw [handovers]
      exact h.flushes f (flushes.subset hmem)
  | ofWorker message sendable handovers pending flushes =>
    refine h.of_append sendable handovers (.inr ⟨rfl, pending.symm⟩) ?_
    intro f hmem
    exact .inl (flushes ▸ hmem)
  | ofFlush f sendable handovers worker flushes =>
    refine h.of_append sendable handovers (.inl worker) ?_
    intro f' hmem
    rw [flushes, List.mem_append, List.mem_singleton] at hmem
    rcases hmem with hmem | rfl
    · exact .inl hmem
    · exact .inr ⟨rfl, rfl⟩

end Handed

theorem Reachable.handed (h : s.Reachable r) : s.Handed r :=
  h.induction (.initial r) fun s e hs => hs.of_handsOver (.step r s e)

/-- Every message that is handed to the transport, by the worker or by a flush, is not empty and is
within the limit of the reporter, which is within the limit of the transport. -/
theorem messages_within_limit {order : Order} (hb : order.build = .ok r) (hs : s.Reachable r) :
    (∀ h ∈ s.journal.handovers, h.message ≠ []
        ∧ order.transport.messageSize (h.message.map Parcel.bytes) ≤ r.messageMaxBytes)
      ∧ r.messageMaxBytes ≤ order.transport.maxBytes
      ∧ (s.worker.pending ≠ [] →
          ∃ h ∈ s.journal.handovers, h.sender = .worker ∧ h.message = s.worker.pending)
      ∧ ∀ f ∈ s.flushes,
          ∃ h ∈ s.journal.handovers, h.sender = .call f.id ∧ h.message = f.message := by
  obtain ⟨ht, hm⟩ := order.build_ok hb
  have hhanded : s.Handed r := hs.handed
  refine ⟨?_, ?_, hhanded.worker, hhanded.flushes⟩
  · intro h hmem
    obtain ⟨hne, hcarries⟩ := hhanded.sendable h hmem
    have hle := Reporter.carries_iff.1 hcarries
    rw [ht] at hle
    exact ⟨hne, hle⟩
  · calc r.messageMaxBytes = order.messageMaxBytes := hm
      _ ≤ order.transport.maxBytes := order.messageMaxBytes_le

end State

/-- Spans of no size over a transport to which two spans are more than three. -/
def Order.crooked : Order where
  transport :=
    { name := "crooked", encoding := .json, maxBytes := 5, singleSize := fun _ => 0
      messageSize := fun spans => if spans.length = 2 then 9 else spans.length }
  settings := { messageMaxBytes := some 4, messageTimeout := 1 }
  encoder := some { encoding := .json, size := fun _ => 0, encode := fun _ => [] }

theorem State.crooked_within_limit :
    ∃ r, Order.crooked.build = .ok r ∧
      let span : Span := default
      let s := (initial r).run r
        [.report span, .report span, .report span, .workerTurn, .pass 1, .workerTurn]
      (s.journal.handovers.map fun h => h.message.map Parcel.serial) = [[0]]
        ∧ s.journal.lost = [1]
        ∧ (∀ h ∈ s.journal.handovers, h.message ≠ []
          ∧ Order.crooked.transport.messageSize (h.message.map Parcel.bytes) ≤ r.messageMaxBytes)
        ∧ r.messageMaxBytes ≤ 5 := by
  refine ⟨_, rfl, by decide +kernel, by decide +kernel, ?_⟩
  have hb : Order.crooked.build = .ok _ := rfl
  obtain ⟨hfit, hle, -, -⟩ := messages_within_limit hb ⟨_, rfl⟩
  exact ⟨hfit, hle⟩

end SpanCourier
