import SpanCourier.Proofs.Reporter.Latch
import SpanCourier.Proofs.Reporter.WorkerBatch

set_option autoImplicit false

/-! # Every span is accounted for

As long as no send crashes, and the clock can name the deadlines of the worker, every reported span
is in exactly one place: in the queue, in the batch of the worker or of a running flush, in a
message that is with the transport, in a message that was sent, or among those counted as dropped.
The invariant is `Ledger.Balanced`. It speaks of the parcels that an operation has in hand, so that
each operation can be looked at alone: between two operations of the worker the parcels of its batch
belong to no place of the state.
-/

namespace SpanCourier

/-! ## Places -/

/-- The parcels of a worker: in its batch, and with the transport. -/
def Worker.parcels (w : Worker) : List Parcel := w.held.map Slot.item ++ w.pending

theorem Worker.parcels_of_batch? {w : Worker} {batch : Batch Parcel} (h : w.batch? = some batch) :
    w.parcels = batch.slots.map Slot.item := by
  cases w <;> cases h <;> simp [parcels, held, pending]

/-- The parcels of a flush: in its batch, and with the transport. -/
def Flush.parcels (f : Flush) : List Parcel := f.batch.slots.map Slot.item ++ f.message

/-- The parcels in the queue. -/
def State.queued (s : State) : List Parcel := s.intake.queue.slots.map Slot.item

/-- The parcels in the batches of the worker and of the flushes. -/
def State.batched (s : State) : List Parcel :=
  s.worker.held.map Slot.item ++ s.flushes.flatMap fun f => f.batch.slots.map Slot.item

/-- The parcels in messages that are with the transport. -/
def State.underway (s : State) : List Parcel := s.worker.pending ++ s.flushes.flatMap Flush.message

/-- The parcels that are neither delivered nor lost. -/
def State.unsettled (s : State) : List Parcel := s.queued ++ s.batched ++ s.underway

/-! ## The ledger -/

/-- The parcels that are no longer there and were not counted as lost: delivered, or spilled. -/
def Journal.departed (journal : Journal) : List Parcel := journal.delivered ++ journal.spilled

/-- What a state says of the reported spans, the worker left out. -/
structure Ledger where
  reported : List Span
  parcels : List Parcel
  lost : List Nat
  spans : UInt64
  dropped : UInt64

/-- The ledger of a state. -/
def State.ledger (s : State) : Ledger where
  reported := s.journal.reported
  parcels := s.queued ++ s.flushes.flatMap Flush.parcels ++ s.journal.departed
  lost := s.journal.lost
  spans := s.metrics.spans
  dropped := s.metrics.spansDropped

/-- With these parcels in hand nothing is missing and nothing is there twice, every parcel is the
encoded form of its span, and the counters say how many spans there were and how many were lost. -/
structure Ledger.Balanced (r : Reporter) (l : Ledger) (hand : List Parcel) : Prop where
  once : ((l.parcels ++ hand).map Parcel.serial ++ l.lost).Perm (List.range l.reported.length)
  encoded : ∀ p ∈ l.parcels ++ hand,
    (l.reported[p.serial]?).map r.encoder.encode = some p.bytes
  spans_eq : l.spans = UInt64.ofNat l.reported.length
  dropped_eq : l.dropped = UInt64.ofNat l.lost.length

namespace Ledger.Balanced

variable {r : Reporter} {l l' : Ledger} {hand hand' : List Parcel}

/-- Parcels may change places, and some may be lost and counted. -/
theorem settle (h : l.Balanced r hand) (gone : List Parcel) (hr : l'.reported = l.reported)
    (hp : (l'.parcels ++ hand' ++ gone).Perm (l.parcels ++ hand))
    (hl : l'.lost = l.lost ++ gone.map Parcel.serial) (hs : l'.spans = l.spans)
    (hd : l'.dropped = l.dropped + UInt64.ofNat gone.length) : l'.Balanced r hand' := by
  constructor
  · -- serial by serial: what is gone is missing among the parcels and new among the lost
    rw [hr, hl]
    refine List.Perm.trans ?_ h.once
    have hmap := hp.map Parcel.serial
    rw [List.map_append] at hmap
    rw [List.perm_iff_count] at hmap ⊢
    intro serial
    have hcount := hmap serial
    simp only [List.count_append] at hcount ⊢
    omega
  · intro p hmem
    rw [hr]
    exact h.encoded p (hp.mem_iff.1 (List.mem_append_left _ hmem))
  · rw [hs, hr]
    exact h.spans_eq
  · rw [hd, hl, h.dropped_eq, List.length_append, List.length_map, UInt64.ofNat_add]

/-- Parcels may change places. -/
theorem move (h : l.Balanced r hand) (hr : l'.reported = l.reported)
    (hp : (l'.parcels ++ hand').Perm (l.parcels ++ hand)) (hl : l'.lost = l.lost)
    (hs : l'.spans = l.spans) (hd : l'.dropped = l.dropped) : l'.Balanced r hand' :=
  h.settle [] hr (by simpa using hp) (by simpa using hl) hs (by simpa using hd)

/-- What is said of a parcel stays true when another span is reported. -/
theorem encoded_append (h : l.Balanced r hand) {p : Parcel} (hmem : p ∈ l.parcels ++ hand)
    (span : Span) : ((l.reported ++ [span])[p.serial]?).map r.encoder.encode = some p.bytes := by
  have he := h.encoded p hmem
  obtain ⟨span', hspan', -⟩ := Option.map_eq_some_iff.1 he
  obtain ⟨hlt, -⟩ := List.getElem?_eq_some_iff.1 hspan'
  rw [List.getElem?_append_left hlt]
  exact he

/-- A span that is reported and lost at once. -/
theorem refuse (h : l.Balanced r hand) {span : Span} (hr : l'.reported = l.reported ++ [span])
    (hp : l'.parcels = l.parcels) (hl : l'.lost = l.lost ++ [l.reported.length])
    (hs : l'.spans = l.spans + 1) (hd : l'.dropped = l.dropped + 1) : l'.Balanced r hand := by
  constructor
  · rw [hr, hp, hl, List.length_append, List.length_singleton, List.range_succ,
      ← List.append_assoc]
    exact h.once.append_right _
  · intro p hmem
    rw [hp] at hmem
    rw [hr]
    exact h.encoded_append hmem span
  · rw [hs, hr, h.spans_eq, List.length_append, UInt64.ofNat_add]
    rfl
  · rw [hd, hl, h.dropped_eq, List.length_append, UInt64.ofNat_add]
    rfl

/-- A span that is reported and becomes a parcel. -/
theorem accept (h : l.Balanced r hand) (span : Span) (hr : l'.reported = l.reported ++ [span])
    (hp : l'.parcels.Perm (⟨l.reported.length, r.encoder.encode span⟩ :: l.parcels))
    (hl : l'.lost = l.lost) (hs : l'.spans = l.spans + 1) (hd : l'.dropped = l.dropped) :
    l'.Balanced r hand := by
  constructor
  · -- the new serial is the next one, so the range grows at its end
    rw [hr, hl, List.length_append, List.length_singleton, List.range_succ]
    refine List.Perm.trans ?_ (h.once.append_right _)
    have hmap := hp.map Parcel.serial
    rw [List.map_cons] at hmap
    rw [List.perm_iff_count] at hmap ⊢
    intro serial
    have hcount := hmap serial
    simp only [List.map_append, List.count_append, List.count_cons, List.count_nil]
      at hcount ⊢
    omega
  · intro p hmem
    rw [hr]
    rcases List.mem_append.1 hmem with hmem | hmem
    · rcases List.mem_cons.1 (hp.mem_iff.1 hmem) with rfl | hmem
      · simp
      · exact h.encoded_append (List.mem_append_left _ hmem) span
    · exact h.encoded_append (List.mem_append_right _ hmem) span
  · rw [hs, hr, h.spans_eq, List.length_append, UInt64.ofNat_add]
    rfl
  · rw [hd, hl, h.dropped_eq]

end Ledger.Balanced

/-- The ledger is balanced with the parcels of the worker in hand. -/
def State.Accounted (r : Reporter) (s : State) : Prop := s.ledger.Balanced r s.worker.parcels

/-- The ledger is balanced with the parcels of the worker in hand, and these, which no place of the
state holds any more. -/
def State.AccountedBut (r : Reporter) (s : State) (astray : List Parcel) : Prop :=
  s.ledger.Balanced r (s.worker.parcels ++ astray)

theorem State.accountedBut_nil {r : Reporter} {s : State} :
    s.AccountedBut r [] ↔ s.Accounted r := by
  rw [AccountedBut, Accounted, List.append_nil]

namespace State

variable {r : Reporter} {s s' : State} {hand astray : List Parcel} {batch : Batch Parcel}

theorem accounted_initial (r : Reporter) : (initial r).Accounted r := by
  constructor
  · simp [ledger, queued, initial, Queue.new, Worker.parcels, Worker.held, Worker.pending,
      Journal.departed, Journal.delivered]
  · intro p hmem
    simp [ledger, queued, initial, Queue.new, Worker.parcels, Worker.held, Worker.pending,
      Journal.departed, Journal.delivered] at hmem
  · rfl
  · rfl

/-! ## Operations of the worker -/

/-- Packing splits the parcels of a batch into those that stay, the message, and the one that is
lost. -/
theorem balanced_dispatch {batch' : Batch Parcel} {message : List Parcel}
    (h : s.ledger.Balanced r (batch.slots.map Slot.item ++ hand))
    (hd : s.dispatch r batch = (s', batch', message)) :
    s'.ledger.Balanced r (batch'.slots.map Slot.item ++ message ++ hand) := by
  cases hp : s.packs batch with
  | false =>
    rw [dispatch_of_not_packs hp] at hd
    cases hd
    rw [List.append_nil]
    exact h
  | true =>
    obtain ⟨full, left, overflow, he, hparts⟩ := dispatch_of_packs r hp
    obtain ⟨metrics, notices, hs, hspans, hdropped⟩ := packed_eq r s batch.size overflow
    rw [he, hs] at hd
    cases hd
    -- the batch is the message, then the parcel that was too much, then what stays
    rw [hparts] at h
    refine h.settle overflow.toList rfl ?_ rfl hspans hdropped
    show (s.ledger.parcels ++ (left.map Slot.item ++ _ ++ hand) ++ overflow.toList).Perm _
    rw [List.perm_iff_count]
    intro p
    simp only [List.count_append]
    omega

/-- What a worker still holds when it ends is lost and counted. -/
theorem accounted_endWorker (h : s.ledger.Balanced r (batch.slots.map Slot.item ++ astray))
    (crashed : Bool) : (s.endWorker batch crashed).AccountedBut r astray := by
  rw [endWorker_eq]
  refine h.settle (batch.slots.map Slot.item) rfl ?_ ?_ rfl ?_
  · show (s.ledger.parcels ++ astray ++ _).Perm _
    rw [List.append_assoc]
    exact List.perm_append_comm.append_left _
  · show s.journal.lost ++ _ = s.journal.lost ++ _
    rw [List.map_map]
    rfl
  · rw [List.length_map]
    rfl

theorem accounted_endCycle (h : s.ledger.Balanced r (batch.slots.map Slot.item ++ astray))
    (last : Bool) : (s.endCycle batch last).AccountedBut r astray := by
  cases last with
  | true => exact accounted_endWorker h false
  | false =>
    refine h.move rfl ?_ rfl rfl rfl
    show (s.ledger.parcels ++ (batch.slots.map Slot.item ++ [] ++ astray)).Perm _
    rw [List.append_nil]

theorem accounted_sendBatch (h : s.ledger.Balanced r (batch.slots.map Slot.item ++ astray))
    (last : Bool) : (s.sendBatch r batch last).AccountedBut r astray := by
  obtain ⟨s', batch', message, hd, hs⟩ := sendBatch_cases r s batch last
  have h' := balanced_dispatch h hd
  rcases hs with ⟨hm, hs⟩ | ⟨-, hs⟩
  · -- packing may lose a parcel even if it makes no message
    rw [hm, List.append_nil] at h'
    rw [hs]
    exact accounted_endCycle h' last
  · rw [hs]
    exact h'

/-- A turn of the worker moves parcels from the queue into its batch and from there into a
message. -/
theorem accounted_workerTurn (h : s.AccountedBut r astray) :
    (s.workerTurn r).AccountedBut r astray := by
  rcases workerTurn_cases r s with hs | ⟨fresh, batch, notices, hw, -, -, hs⟩ |
    ⟨batch, batch', taken, left, signal, notices, last, hb, hq, hslots, -, hs⟩ |
    ⟨batch, slot, left, signal, notices, hb, hspill, hs⟩
  · rw [hs]
    exact h
  · have hp : s.worker.parcels = batch.slots.map Slot.item ++ [] := by rw [hw]; rfl
    rw [AccountedBut, hp] at h
    rw [hs]
    exact h
  · rw [hs]
    apply accounted_sendBatch
    rw [AccountedBut, Worker.parcels_of_batch? hb] at h
    refine h.move rfl ?_ rfl rfl rfl
    rw [hslots]
    -- the parcels taken leave the front of the queue and join the end of the batch
    have hqueue : s.queued = taken.map Slot.item ++ left.map Slot.item := by
      rw [queued, hq, List.map_append]
    show (left.map Slot.item ++ s.flushes.flatMap Flush.parcels ++ s.journal.departed ++ _).Perm
      (s.queued ++ s.flushes.flatMap Flush.parcels ++ s.journal.departed ++ _)
    rw [hqueue, List.map_append, List.perm_iff_count]
    intro p
    simp only [List.count_append]
    omega
  · rw [hs]
    rw [AccountedBut, Worker.parcels_of_batch? hb, hspill.slots_eq] at h
    refine h.move rfl ?_ rfl rfl rfl
    -- the head of the queue is spilled
    have hqueue : s.queued = slot.item :: left.map Slot.item := by
      rw [queued, hspill.queue_eq, List.map_cons]
    show (left.map Slot.item ++ s.flushes.flatMap Flush.parcels
      ++ (s.journal.delivered ++ (s.journal.spilled ++ [slot.item])) ++ ([] ++ astray)).Perm
      (s.queued ++ s.flushes.flatMap Flush.parcels
        ++ (s.journal.delivered ++ s.journal.spilled) ++ ([] ++ astray))
    rw [hqueue, List.perm_iff_count]
    intro p
    simp only [List.count_append, List.count_cons, List.count_nil]
    omega

/-! ## The ends of sends -/

theorem count_departed_append (journal : Journal) (ending : Ending) (p : Parcel) :
    { journal with endings := journal.endings ++ [ending] }.departed.count p =
      journal.departed.count p
        + (if ending.outcome = .sent then ending.message else []).count p := by
  by_cases ho : ending.outcome = .sent
  · simp [Journal.departed, Journal.delivered, ho]
    omega
  · simp [Journal.departed, Journal.delivered, ho]

/-- The parcels of a send that does not crash are delivered, or lost and counted. -/
theorem balanced_endSend {message : List Parcel}
    (h : s.ledger.Balanced r (message ++ hand)) (sender : Sender) {outcome : Outcome}
    (ho : outcome ≠ .crashed) :
    (s.endSend r sender message outcome).ledger.Balanced r hand := by
  cases outcome with
  | sent =>
    rw [endSend_sent]
    refine h.move rfl ?_ rfl rfl rfl
    show (s.queued ++ s.flushes.flatMap Flush.parcels ++ Journal.departed _ ++ hand).Perm
      (s.queued ++ s.flushes.flatMap Flush.parcels ++ s.journal.departed ++ _)
    rw [List.perm_iff_count]
    intro p
    have hcount := count_departed_append s.journal ⟨sender, message, .sent⟩ p
    rw [if_pos rfl] at hcount
    simp only [List.count_append, hcount]
    omega
  | failed error =>
    rw [endSend_failed]
    refine h.settle message rfl ?_ rfl rfl rfl
    show (s.queued ++ s.flushes.flatMap Flush.parcels ++ Journal.departed _ ++ hand
      ++ message).Perm (s.queued ++ s.flushes.flatMap Flush.parcels ++ s.journal.departed ++ _)
    rw [List.perm_iff_count]
    intro p
    have hcount := count_departed_append s.journal ⟨sender, message, .failed error⟩ p
    rw [if_neg (by simp)] at hcount
    simp only [Journal.departed, Journal.delivered, List.count_append, List.count_nil] at hcount ⊢
    omega
  | crashed => exact absurd rfl ho

/-- The parcels of a send that crashes are still in hand: nobody delivers or counts them. -/
theorem balanced_endSend_crashed (h : s.ledger.Balanced r hand) (sender : Sender)
    (message : List Parcel) : (s.endSend r sender message .crashed).ledger.Balanced r hand := by
  refine h.move rfl ?_ rfl rfl rfl
  show (s.queued ++ s.flushes.flatMap Flush.parcels ++ Journal.departed _ ++ hand).Perm
    (s.queued ++ s.flushes.flatMap Flush.parcels ++ s.journal.departed ++ hand)
  rw [List.perm_iff_count]
  intro p
  have hcount := count_departed_append s.journal ⟨sender, message, .crashed⟩ p
  rw [if_neg (by simp)] at hcount
  simp only [endSend, List.count_append, List.count_nil] at hcount ⊢
  omega

theorem accounted_workerSendEnds (h : s.AccountedBut r astray) {outcome : Outcome}
    (ho : outcome ≠ .crashed) : (s.workerSendEnds r outcome).AccountedBut r astray := by
  rcases workerSendEnds_cases r s outcome with hs | ⟨batch, message, last, hw, hs⟩
  · rw [hs]
    exact h
  · have hp : s.worker.parcels = batch.slots.map Slot.item ++ message := by rw [hw]; rfl
    rw [AccountedBut, hp] at h
    have h₁ : s.ledger.Balanced r (message ++ (batch.slots.map Slot.item ++ astray)) := by
      refine h.move rfl (List.Perm.append_left _ ?_) rfl rfl rfl
      rw [← List.append_assoc]
      exact List.perm_append_comm.append_right _
    have h₂ := balanced_endSend h₁ .worker ho
    rcases hs with ⟨-, hs⟩ | ⟨notices, crashed, hs⟩
    · rw [hs]
      exact accounted_endCycle h₂ last
    · rw [hs]
      apply accounted_endWorker
      exact h₂

/-- A crash ends the worker. What is left in its batch is counted, its message is not. -/
theorem accounted_workerCrash (h : s.AccountedBut r astray) :
    (s.workerSendEnds r .crashed).AccountedBut r (s.worker.pending ++ astray) := by
  obtain ⟨worker, hw⟩ : ∃ worker, s.worker = worker := ⟨_, rfl⟩
  have hidle : s.worker.pending = [] → s.workerSendEnds r .crashed = s →
      (s.workerSendEnds r .crashed).AccountedBut r (s.worker.pending ++ astray) := by
    intro hp hs
    rw [hp, hs]
    exact h
  cases worker with
  | absent => exact hidle (by rw [hw]; rfl) (by rw [workerSendEnds, hw])
  | ready fresh batch => exact hidle (by rw [hw]; rfl) (by rw [workerSendEnds, hw])
  | parked batch since deadline => exact hidle (by rw [hw]; rfl) (by rw [workerSendEnds, hw])
  | gone => exact hidle (by rw [hw]; rfl) (by rw [workerSendEnds, hw])
  | sending batch message last =>
    have hs : s.workerSendEnds r .crashed =
        (s.endSend r .worker message .crashed).endWorker batch true := by
      rw [workerSendEnds, hw]
    rw [hs, hw]
    apply accounted_endWorker
    apply balanced_endSend_crashed
    rw [AccountedBut, hw] at h
    show s.ledger.Balanced r (batch.slots.map Slot.item ++ (message ++ astray))
    rw [← List.append_assoc]
    exact h

/-! ## Calls -/

theorem parcels_startWorker (hl : s.Latched) :
    (s.startWorker r).worker.parcels = s.worker.parcels := by
  rcases startWorker_cases r s with ⟨-, hs⟩ | ⟨-, -, hs⟩ | ⟨-, hlatch, hs⟩
  · rw [hs]
  · rw [hs]
  · -- the new worker holds nothing, and there was none before
    rw [hs, hl.absent hlatch]
    rfl

theorem accounted_report (h : s.AccountedBut r astray) (hl : s.Latched) (span : Span) :
    (s.report r span).AccountedBut r astray := by
  -- a new worker has an empty batch, so its start moves no parcel
  have h₁ : (s.startWorker r).AccountedBut r astray := by
    have hledger : (s.startWorker r).ledger = s.ledger := by
      obtain ⟨started, latch, worker, hs⟩ := startWorker_frame r s
      rw [hs]
      rfl
    rw [AccountedBut, hledger, parcels_startWorker hl]
    exact h
  have hserial : (s.startWorker r).journal.reported.length = s.journal.reported.length := by
    obtain ⟨started, latch, worker, hs⟩ := startWorker_frame r s
    rw [hs]
  rcases report_cases r s span with ⟨-, hr⟩ | ⟨-, intake, ho, hr⟩
  · rw [hr, lose_eq, ← hserial]
    exact h₁.refuse rfl rfl rfl rfl rfl
  · rw [hr]
    obtain ⟨hslots, -⟩ := Intake.offer?_eq_some ho
    have hqueue : (s.startWorker r).intake.queue = s.intake.queue := by
      obtain ⟨started, latch, worker, hs⟩ := startWorker_frame r s
      rw [hs]
    refine h₁.accept span rfl ?_ rfl rfl rfl
    show (intake.queue.slots.map Slot.item ++ (s.startWorker r).flushes.flatMap Flush.parcels
      ++ (s.startWorker r).journal.departed).Perm
      (_ :: ((s.startWorker r).queued ++ (s.startWorker r).flushes.flatMap Flush.parcels
        ++ (s.startWorker r).journal.departed))
    rw [hslots, List.map_append, queued, hqueue, List.perm_iff_count]
    intro p
    simp only [ledger, hserial, List.map_cons, List.map_nil, List.count_append, List.count_cons,
      List.count_nil]
    omega

/-- What a flush still holds when it returns is lost and counted. -/
theorem accounted_endFlush
    (h : s.ledger.Balanced r (batch.slots.map Slot.item ++ (s.worker.parcels ++ astray)))
    (id : Nat) (error : Option ReporterError) :
    (s.endFlush id batch error).AccountedBut r astray := by
  rw [endFlush_eq]
  refine h.settle (batch.slots.map Slot.item) rfl ?_ ?_ rfl ?_
  · show (s.ledger.parcels ++ (s.worker.parcels ++ astray) ++ _).Perm _
    rw [List.append_assoc]
    exact List.perm_append_comm.append_left _
  · show s.journal.lost ++ _ = s.journal.lost ++ _
    rw [List.map_map]
    rfl
  · rw [List.length_map]
    rfl

theorem accounted_flush (h : s.AccountedBut r astray) (id : Nat) :
    (s.flush r id).AccountedBut r astray := by
  rcases flush_cases r s id with
    ⟨-, hs⟩ | ⟨-, batch, left, signal, s', batch', message, hq, hd, hs⟩
  · rw [hs]
    exact h
  · -- the flush has in hand what it drained, next to what the worker has
    have h₁ : State.ledger { s with intake :=
        { queue := { s.intake.queue with
            slots := left, bytes := s.intake.queue.bytes - Slot.total batch.slots }
          signal } } |>.Balanced r
            (batch.slots.map Slot.item ++ (s.worker.parcels ++ astray)) := by
      refine h.move rfl ?_ rfl rfl rfl
      have hqueue : s.queued = batch.slots.map Slot.item ++ left.map Slot.item := by
        rw [queued, hq, List.map_append]
      show (left.map Slot.item ++ s.flushes.flatMap Flush.parcels ++ s.journal.departed
        ++ _).Perm (s.queued ++ s.flushes.flatMap Flush.parcels ++ s.journal.departed ++ _)
      rw [hqueue, List.perm_iff_count]
      intro p
      simp only [List.count_append]
      omega
    have h₂ := balanced_dispatch h₁ hd
    obtain ⟨metrics, notices, lost, rfl⟩ := dispatch_frame hd
    rcases hs with ⟨hm, hs⟩ | ⟨-, hs⟩
    · rw [hm, List.append_nil] at h₂
      rw [hs]
      exact accounted_endFlush h₂ id none
    · -- the message and the rest of the batch are from now on those of a flush that is under way
      rw [hs]
      refine h₂.move rfl ?_ rfl rfl rfl
      show (left.map Slot.item ++ List.flatMap Flush.parcels (s.flushes ++ [⟨id, batch', message⟩])
        ++ s.journal.departed ++ (s.worker.parcels ++ astray)).Perm
        (left.map Slot.item ++ s.flushes.flatMap Flush.parcels ++ s.journal.departed ++ _)
      rw [List.flatMap_append, List.perm_iff_count]
      intro p
      simp only [Flush.parcels, List.flatMap_cons, List.flatMap_nil, List.count_append,
        List.count_nil]
      omega

/-- A flush that is taken off the list of those under way leaves its message and its batch in
hand. -/
theorem balanced_unlist {before after : List Flush} {f : Flush} (h : s.AccountedBut r astray)
    (hf : s.flushes = before ++ f :: after) :
    State.ledger { s with flushes := before ++ after } |>.Balanced r
      (f.message ++ (f.batch.slots.map Slot.item ++ (s.worker.parcels ++ astray))) := by
  refine h.move rfl ?_ rfl rfl rfl
  show (s.queued ++ List.flatMap Flush.parcels (before ++ after) ++ s.journal.departed
    ++ _).Perm (s.queued ++ s.flushes.flatMap Flush.parcels ++ s.journal.departed ++ _)
  rw [hf, List.perm_iff_count]
  intro p
  simp only [List.flatMap_append, List.flatMap_cons, Flush.parcels, List.count_append]
  omega

theorem accounted_flushSendEnds (h : s.AccountedBut r astray) (id : Nat) {outcome : Outcome}
    (ho : outcome ≠ .crashed) : (s.flushSendEnds r id outcome).AccountedBut r astray := by
  rcases flushSendEnds_cases r s id outcome with
    hs | ⟨f, before, after, s', hflushes, -, rfl, hs⟩
  · rw [hs]
    exact h
  · -- the message is in hand for the end of the send, and the batch for the flush's own return
    have h₂ := balanced_endSend (balanced_unlist h hflushes) (.call id) ho
    have hw : (State.endSend r { s with flushes := before ++ after } (.call id) f.message
        outcome).worker.parcels = s.worker.parcels := by
      obtain ⟨_, _, _, _, _, he⟩ :=
        endSend_frame r { s with flushes := before ++ after } (.call id) f.message outcome
      rw [he]
    rw [← hw] at h₂
    rcases hs with ⟨hc, -⟩ | ⟨-, error, hs⟩
    · exact absurd hc ho
    · rw [hs]
      exact accounted_endFlush h₂ id error

/-- The parcels of the flush of a call that is under way. -/
def flushParcels (s : State) (id : Nat) : List Parcel :=
  (s.flushes.find? fun f => f.id = id).elim [] Flush.parcels

/-- A crash ends the call of a flush. Neither its message nor what is left in its batch is
counted. -/
theorem accounted_flushCrash (h : s.AccountedBut r astray) (id : Nat) :
    (s.flushSendEnds r id .crashed).AccountedBut r (s.flushParcels id ++ astray) := by
  cases hf : s.flushes.find? fun f => f.id = id with
  | none =>
    rw [flushSendEnds, flushParcels, hf]
    exact h
  | some f =>
    obtain ⟨before, after, s', hflushes, -, -, rfl, hs⟩ := flushSendEnds_of_find r hf .crashed
    have h₂ := balanced_endSend_crashed (balanced_unlist h hflushes) (.call id) f.message
    rw [hs, if_pos rfl, flushParcels, hf]
    refine h₂.move rfl (List.Perm.append_left _ ?_) rfl rfl rfl
    show (s.worker.parcels ++ (f.batch.slots.map Slot.item ++ f.message ++ astray)).Perm _
    rw [List.perm_iff_count]
    intro p
    simp only [List.count_append]
    omega

/-- What is queued when a close returns is lost and counted. -/
theorem accounted_endClose (h : s.AccountedBut r astray) (id : Nat) :
    (s.endClose id).AccountedBut r astray := by
  rw [endClose_eq]
  refine h.settle s.queued rfl ?_ ?_ rfl ?_
  · show ([] ++ s.flushes.flatMap Flush.parcels ++ s.journal.departed
        ++ (s.worker.parcels ++ astray) ++ s.queued).Perm
      (s.queued ++ s.flushes.flatMap Flush.parcels ++ s.journal.departed
        ++ (s.worker.parcels ++ astray))
    rw [List.perm_iff_count]
    intro p
    simp only [List.nil_append, List.count_append]
    omega
  · show s.journal.lost ++ _ = s.journal.lost ++ _
    rw [queued, List.map_map]
    rfl
  · rw [queued, List.length_map]
    rfl

theorem accounted_close (h : s.AccountedBut r astray) (id : Nat) :
    (s.close r id).AccountedBut r astray := by
  rcases close_cases r s id with ⟨-, hs⟩ | ⟨-, notices, hs⟩ | ⟨-, hs⟩
  · rw [hs]
    exact h
  · have h₁ : State.AccountedBut r { s.shut with notices } astray := h
    rw [hs]
    exact accounted_endClose h₁ id
  · rw [hs]
    exact h

theorem accounted_closeTurn (h : s.AccountedBut r astray) (id : Nat) :
    (s.closeTurn r id).AccountedBut r astray := by
  rcases closeTurn_cases r s id with hs | ⟨c, notices, -, -, -, hs⟩
  · rw [hs]
    exact h
  · have h₁ : State.AccountedBut r { s with notices } astray := h
    have h₂ := accounted_endClose h₁ id
    rw [hs]
    exact h₂

theorem accounted_drop (h : s.AccountedBut r astray) : s.drop.AccountedBut r astray := by
  rw [drop]
  split
  · exact h
  · exact h

end State

/-! ## Runs -/

/-- An event that is not a crash. -/
def Event.calm : Event → Bool
  | .sendEnds _ .crashed => false
  | _ => true

namespace State

variable {r : Reporter} {s : State} {astray : List Parcel}

/-- The parcels that a crash leaves in no place: those of the message, and if the call of a flush
crashes what its batch still held as well. -/
def vanishes (s : State) : Event → List Parcel
  | .sendEnds .worker .crashed => s.worker.pending
  | .sendEnds (.call id) .crashed => s.flushParcels id
  | _ => []

/-- Only a crash makes parcels vanish. -/
theorem vanishes_eq_nil {e : Event} (h : e.calm = true) (s : State) : s.vanishes e = [] := by
  cases e with
  | sendEnds sender outcome =>
    cases outcome with
    | sent => cases sender <;> rfl
    | crashed => cases h
    | failed error => cases sender <;> rfl
  | report span => rfl
  | flush id => rfl
  | close id => rfl
  | drop => rfl
  | workerTurn => rfl
  | closeTurn id => rfl
  | pass time => rfl

/-- Every event keeps the accounts, but for the parcels that a crash makes vanish. -/
theorem accountedBut_step (h : s.AccountedBut r astray) (hl : s.Latched) (e : Event) :
    (s.step r e).AccountedBut r (s.vanishes e ++ astray) := by
  cases e with
  | report span => exact accounted_report h hl span
  | flush id => exact accounted_flush h id
  | close id => exact accounted_close h id
  | drop => exact accounted_drop h
  | workerTurn => exact accounted_workerTurn h
  | closeTurn id => exact accounted_closeTurn h id
  | sendEnds sender outcome =>
    by_cases ho : outcome = .crashed
    · subst ho
      cases sender with
      | worker => exact accounted_workerCrash h
      | call id => exact accounted_flushCrash h id
    · have hcalm : Event.calm (.sendEnds sender outcome) = true := by
        cases outcome with
        | sent => rfl
        | crashed => exact absurd rfl ho
        | failed error => rfl
      rw [vanishes_eq_nil hcalm]
      cases sender with
      | worker => exact accounted_workerSendEnds h ho
      | call id => exact accounted_flushSendEnds h id ho
  | pass time => exact h

theorem reported_run (r : Reporter) (s : State) (events : List Event) :
    (s.run r events).journal.reported = s.journal.reported ++ events.filterMap Event.span? := by
  induction events generalizing s with
  | nil => exact (List.append_nil _).symm
  | cons e rest ih =>
    have hrest : (s.run r (e :: rest)).journal.reported
        = (s.step r e).journal.reported ++ rest.filterMap Event.span? := ih (s.step r e)
    rw [hrest, reported_step, List.append_assoc]
    cases hspan : e.span? with
    | none => simp [hspan]
    | some span => simp [hspan]

/-- The places of the parcels, and those of the ledger with the worker in hand. -/
theorem perm_places (s : State) :
    (s.unsettled ++ s.journal.departed).Perm (s.ledger.parcels ++ s.worker.parcels) := by
  have hflush : ∀ flushes : List Flush, (flushes.flatMap Flush.parcels).Perm
      ((flushes.flatMap fun f => f.batch.slots.map Slot.item)
        ++ flushes.flatMap Flush.message) := by
    intro flushes
    induction flushes with
    | nil => exact List.Perm.refl _
    | cons f rest ih =>
      rw [List.perm_iff_count] at ih ⊢
      intro p
      have hcount := ih p
      simp only [List.flatMap_cons, Flush.parcels, List.count_append] at hcount ⊢
      omega
  have hcounts := List.perm_iff_count.1 (hflush s.flushes)
  rw [List.perm_iff_count]
  intro p
  have hcount := hcounts p
  simp only [unsettled, batched, underway, ledger, Worker.parcels, List.count_append] at hcount ⊢
  omega

/-- A state in which no worker is alive and no flush runs holds spans only in its queue. -/
theorem unsettled_eq_queued (ha : s.worker.alive = false) (hf : s.flushes = []) :
    s.unsettled = s.queued := by
  cases hw : s.worker <;> rw [hw] at ha <;>
    simp [unsettled, batched, underway, hw, hf, Worker.held, Worker.pending, Worker.alive] at ha ⊢

end State

/-- A reporter whose spans are one byte long, and whose messages have at most three bytes over a
transport that counts one byte more for every span. -/
def Reporter.tiny : Reporter where
  encoder := { encoding := .proto3, size := fun _ => 1, encode := fun _ => [0] }
  transport := .padded .proto3 3 1 none
  messageMaxBytes := 3
  messageTimeout := 1
  closeTimeout := 5
  queuedMaxSpans := 4
  queuedMaxBytes := none

end SpanCourier
