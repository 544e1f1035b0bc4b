import Mathlib.Algebra.Ring.Nat
import SpanCourier.Proofs.Reporter.Failures
import SpanCourier.Proofs.Reporter.Lossless

set_option autoImplicit false

/-! # What is counted of messages

A message is counted when its batch is packed, with the size of the batch, and before the transport
has said how much of the batch it takes. So the counters tell of the batches that were packed
(`Bundle`) and not of the messages that were handed over; the two agree as long as the transport
takes every batch whole. A failed send is counted when it ends, under the kind of its error.

All that is counted and written down of messages is the `Traffic` of a state. What an event does to
it is said by `State.traffic_step`, and what a run does by `State.traffic_run`.
-/

namespace SpanCourier

/-! ## Batches that are packed -/

/-- A batch as it is packed. -/
structure Bundle where
  sender : Sender
  slots : List (Slot Parcel)
  time : Instant

namespace Bundle

/-- The message that it becomes; none if already the first span is too much for the transport. -/
def message (r : Reporter) (b : Bundle) : List Parcel :=
  longestFit r.carries (b.slots.map Slot.item)

/-- How large the message of all its spans would be, by the sizes that they came with. -/
def bytes (r : Reporter) (b : Bundle) : Nat :=
  r.encoder.encoding.listSize (b.slots.map Slot.size)

/-- What is handed over of it. -/
def handover? (r : Reporter) (b : Bundle) : Option Handover :=
  if b.message r = [] then none else some ⟨b.sender, b.message r, b.time⟩

/-- The transport takes all of it. -/
def Whole (r : Reporter) (b : Bundle) : Prop := b.message r = b.slots.map Slot.item

end Bundle

/-- How large the list of encoded spans is that was handed over. -/
def Handover.bytes (r : Reporter) (h : Handover) : Nat :=
  r.encoder.encoding.messageSize (h.message.map Parcel.bytes)

/-- The kind under which a send that failed is counted. -/
def Ending.kind? (e : Ending) : Option TransportError.Kind :=
  match e.outcome with
  | .failed error => some error.kind
  | _ => none

namespace State

/-- The bundle of a batch that is to be packed now. -/
def bundleOf? (s : State) (sender : Sender) (batch : Batch Parcel) : Option Bundle :=
  if s.packs batch then some ⟨sender, batch.slots, s.now⟩ else none

/-- What an event packs. -/
def bundle? (r : Reporter) (s : State) : Event → Option Bundle
  | .workerTurn =>
    match s.fill r with
    | .waits _ => none
    | .over s batch _ => s.bundleOf? .worker batch
    | .crashed _ _ => none
  | .flush id =>
    if s.closed then none
    else
      bundleOf? { s with intake := (s.flushDrain r).1 } (.call id) (s.flushDrain r).2.consumer
  | _ => none

/-- What a row of events packs. -/
def bundles (r : Reporter) (s : State) : List Event → List Bundle
  | [] => []
  | e :: rest => (s.bundle? r e).toList ++ bundles r (s.step r e) rest

/-- The message that a sender has with the transport. -/
def outgoing? (s : State) : Sender → Option (List Parcel)
  | .worker =>
    match s.worker with
    | .sending _ message _ => some message
    | _ => none
  | .call id => (s.flushes.find? fun f => f.id = id).map Flush.message

/-- The send that an event ends. -/
def ended? (s : State) : Event → Option Ending
  | .sendEnds sender outcome => (s.outgoing? sender).map fun message => ⟨sender, message, outcome⟩
  | _ => none

end State

/-! ## Traffic -/

/-- What is counted and written down of messages. -/
structure Traffic where
  messages : UInt64 := 0
  bytes : UInt64 := 0
  dropped : TransportError.Kind → UInt64 := fun _ => 0
  handovers : List Handover := []
  endings : List Ending := []

/-- The traffic of a state. -/
def State.traffic (s : State) : Traffic where
  messages := s.metrics.messages
  bytes := s.metrics.messageBytes
  dropped := s.metrics.messagesDropped
  handovers := s.journal.handovers
  endings := s.journal.endings

namespace Traffic

/-- The traffic after these batches were packed and these sends ended. -/
def after (r : Reporter) (t : Traffic) (packed : List Bundle) (ended : List Ending) : Traffic where
  messages := t.messages + UInt64.ofNat packed.length
  bytes := t.bytes + UInt64.ofNat (packed.map (Bundle.bytes r)).sum
  dropped kind := t.dropped kind + UInt64.ofNat (ended.countP fun e => e.kind? = some kind)
  handovers := t.handovers ++ packed.filterMap (Bundle.handover? r)
  endings := t.endings ++ ended

@[simp] theorem after_nil (r : Reporter) (t : Traffic) : t.after r [] [] = t := by
  cases t
  simp [after]

/-- One more batch. -/
theorem after_pack (r : Reporter) (t : Traffic) (b : Bundle) :
    t.after r [b] [] =
      { t with
        messages := t.messages + 1
        bytes := t.bytes + UInt64.ofNat (b.bytes r)
        handovers := t.handovers ++ (b.handover? r).toList } := by
  cases hb : b.handover? r <;> simp [after, hb]

/-- One more send that ended. -/
theorem after_end (r : Reporter) (t : Traffic) (e : Ending) :
    t.after r [] [e] =
      { t with
        dropped := fun kind => if e.kind? = some kind then t.dropped kind + 1 else t.dropped kind
        endings := t.endings ++ [e] } := by
  have hdropped : ∀ kind, t.dropped kind
        + UInt64.ofNat ([e].countP fun e => decide (e.kind? = some kind)) =
      if e.kind? = some kind then t.dropped kind + 1 else t.dropped kind := by
    intro kind
    by_cases hk : e.kind? = some kind
    · simp [hk]
    · simp [hk]
  simp only [after, hdropped]
  simp

theorem after_after (r : Reporter) (t : Traffic) (packed packed' : List Bundle)
    (ended ended' : List Ending) :
    (t.after r packed ended).after r packed' ended' =
      t.after r (packed ++ packed') (ended ++ ended') := by
  simp only [after, List.length_append, List.map_append, List.sum_append, List.countP_append,
    List.filterMap_append, List.append_assoc, UInt64.ofNat_add, UInt64.add_assoc]

end Traffic

namespace State

variable {r : Reporter} {s s' : State} {batch batch' : Batch Parcel} {message : List Parcel}

/-! ## Operations that pack nothing -/

theorem traffic_lose (s : State) (serials : List Nat) : (s.lose serials).traffic = s.traffic := by
  rw [lose_eq]
  rfl

theorem traffic_endWorker (s : State) (batch : Batch Parcel) (crashed : Bool) :
    (s.endWorker batch crashed).traffic = s.traffic := by
  rw [endWorker_eq]
  rfl

theorem traffic_endCycle (s : State) (batch : Batch Parcel) (last : Bool) :
    (s.endCycle batch last).traffic = s.traffic := by
  cases last with
  | true => exact traffic_endWorker s batch false
  | false => rfl

theorem traffic_endFlush (s : State) (id : Nat) (batch : Batch Parcel)
    (error : Option ReporterError) : (s.endFlush id batch error).traffic = s.traffic := by
  rw [endFlush_eq]
  rfl

theorem traffic_endClose (s : State) (id : Nat) : (s.endClose id).traffic = s.traffic := by
  rw [endClose_eq]
  rfl

theorem traffic_report (r : Reporter) (s : State) (span : Span) :
    (s.report r span).traffic = s.traffic := by
  obtain ⟨started, latch, worker, hs⟩ := startWorker_frame r s
  rcases report_cases r s span with ⟨-, hr⟩ | ⟨-, intake, -, hr⟩
  · rw [hr, traffic_lose, hs]
    rfl
  · rw [hr, hs]
    rfl

theorem traffic_close (r : Reporter) (s : State) (id : Nat) :
    (s.close r id).traffic = s.traffic := by
  rcases close_cases r s id with ⟨-, hs⟩ | ⟨-, notices, hs⟩ | ⟨-, hs⟩
  · rw [hs]
    rfl
  · rw [hs, traffic_endClose]
    rfl
  · rw [hs]
    rfl

theorem traffic_closeTurn (r : Reporter) (s : State) (id : Nat) :
    (s.closeTurn r id).traffic = s.traffic := by
  rcases closeTurn_cases r s id with hs | ⟨c, notices, -, -, -, hs⟩
  · rw [hs]
  · rw [hs]
    exact traffic_endClose { s with notices } id

theorem traffic_drop (s : State) : s.drop.traffic = s.traffic := by
  rw [drop]
  split
  · rfl
  · rfl

/-! ## Packing -/

theorem traffic_packed (r : Reporter) (s : State) (size : Nat) (overflow : Option Parcel) :
    (s.packed r size overflow).traffic =
      { s.traffic with
        messages := s.metrics.messages + 1
        bytes := s.metrics.messageBytes + UInt64.ofNat size } := by
  cases overflow with
  | none => rfl
  | some parcel =>
    rw [packed, lose_eq]
    rfl

/-- Packing counts the batch, and what comes out of it is handed over. -/
theorem traffic_dispatch (sender : Sender) (hd : s.dispatch r batch = (s', batch', message))
    (hsize : batch.size = r.encoder.encoding.listSize batch.sizes) :
    (if message = [] then s' else s'.handOver sender message).traffic =
      s.traffic.after r (s.bundleOf? sender batch).toList [] := by
  cases hp : s.packs batch with
  | false =>
    rw [dispatch_of_not_packs hp] at hd
    cases hd
    rw [if_pos rfl, bundleOf?, hp, if_neg Bool.false_ne_true, Option.toList_none,
      Traffic.after_nil]
    rfl
  | true =>
    obtain ⟨full, left, overflow, he, -⟩ := dispatch_of_packs r hp
    rw [he] at hd
    cases hd
    have hpacked := traffic_packed r s batch.size overflow
    have hnow : (s.packed r batch.size overflow).now = s.now := by
      obtain ⟨metrics, notices, hs, -, -⟩ := packed_eq r s batch.size overflow
      rw [hs]
    rw [bundleOf?, hp, if_pos rfl, Option.toList_some, Traffic.after_pack]
    by_cases hm : longestFit r.carries (batch.slots.map Slot.item) = []
    · rw [if_pos hm, hpacked, hsize, Bundle.handover?, Bundle.message, if_pos hm,
        Option.toList_none, List.append_nil]
      rfl
    · have hhandover : (State.handOver (s.packed r batch.size overflow) sender
          (longestFit r.carries (batch.slots.map Slot.item))).traffic =
          { (s.packed r batch.size overflow).traffic with
            handovers := (s.packed r batch.size overflow).traffic.handovers
              ++ [⟨sender, longestFit r.carries (batch.slots.map Slot.item),
                (s.packed r batch.size overflow).now⟩] } := rfl
      rw [if_neg hm, hhandover, hpacked, hnow, hsize, Bundle.handover?, Bundle.message, if_neg hm]
      rfl

/-- A turn of the worker packs its batch, or nothing. -/
theorem traffic_workerTurn (h : s.Reachable r) :
    (s.workerTurn r).traffic = s.traffic.after r (s.bundle? r .workerTurn).toList [] := by
  rw [workerTurn, bundle?]
  rcases hf : s.fill r with s' | ⟨s₁, batch, last⟩ | ⟨s₁, batch⟩
  · rw [Option.toList_none, Traffic.after_nil]
    rcases fill_waits hf with rfl | ⟨fresh, batch, notices, -, -, -, -, rfl⟩
    · rfl
    · rfl
  · obtain ⟨-, taken, left, signal, notices, -, -, hs₁, -⟩ := fill_drains hf
    have htraffic : s₁.traffic = s.traffic := by
      rw [hs₁]
      rfl
    obtain ⟨s', batch', message, hd, hsend⟩ := sendBatch_cases r s₁ batch last
    have hpack := traffic_dispatch .worker hd (h.madeFor_of_fill hf).size_eq
    show (s₁.sendBatch r batch last).traffic = _
    rw [htraffic] at hpack
    rw [← hpack]
    rcases hsend with ⟨hm, hsend⟩ | ⟨hm, hsend⟩
    · rw [hsend, traffic_endCycle, if_pos hm]
    · rw [hsend, if_neg hm]
      rfl
  · obtain ⟨slot, left, signal, notices, -, -, rfl⟩ := fill_crashes hf
    rw [Option.toList_none, Traffic.after_nil]
    exact traffic_endWorker _ batch true

/-- A flush of an open reporter packs what it has drained. -/
theorem traffic_flush (r : Reporter) (s : State) (id : Nat) :
    (s.flush r id).traffic = s.traffic.after r (s.bundle? r (.flush id)).toList [] := by
  cases hc : s.closed with
  | true =>
    rw [flush, if_pos hc, bundle?, if_pos hc, Option.toList_none, Traffic.after_nil]
    rfl
  | false =>
    obtain ⟨s', batch', message, hd, hs⟩ := flush_of_open r id hc
    obtain ⟨batch, left, hdrains, -, hbatch⟩ := flushDrain_eq r s
    have hmade : (s.flushDrain r).2.consumer.MadeFor r 0 := by
      rw [hbatch]
      exact .of_drains hdrains
    have hpack := traffic_dispatch (.call id) hd hmade.size_eq
    rw [bundle?, if_neg (by rw [hc]; exact Bool.false_ne_true)]
    refine Eq.trans ?_ hpack
    rcases hs with ⟨hm, hs⟩ | ⟨hm, hs⟩
    · rw [hs, traffic_endFlush, if_pos hm]
    · rw [hs, if_neg hm]
      rfl

/-! ## The ends of sends -/

theorem traffic_endSend (r : Reporter) (s : State) (sender : Sender) (message : List Parcel)
    (outcome : Outcome) :
    (s.endSend r sender message outcome).traffic =
      s.traffic.after r [] [⟨sender, message, outcome⟩] := by
  rw [Traffic.after_end]
  cases outcome with
  | sent => rfl
  | crashed => rfl
  | failed error =>
    have hdropped : (fun kind => if some error.kind = some kind
          then s.metrics.messagesDropped kind + 1 else s.metrics.messagesDropped kind) =
        fun kind => if kind = error.kind
          then s.metrics.messagesDropped kind + 1 else s.metrics.messagesDropped kind := by
      funext kind
      simp only [Option.some.injEq, eq_comm]
    rw [endSend_failed]
    show _ = { s.traffic with
      dropped := fun kind => if some error.kind = some kind
        then s.metrics.messagesDropped kind + 1 else s.metrics.messagesDropped kind
      endings := s.journal.endings ++ [(⟨sender, message, .failed error⟩ : Ending)] }
    rw [hdropped]
    rfl

theorem traffic_workerSendEnds (r : Reporter) (s : State) (outcome : Outcome) :
    (s.workerSendEnds r outcome).traffic =
      s.traffic.after r [] (s.ended? (.sendEnds .worker outcome)).toList := by
  obtain ⟨worker, hw⟩ : ∃ worker, s.worker = worker := ⟨_, rfl⟩
  -- only a worker whose message is with the transport has anything to end
  have hidle : s.outgoing? .worker = none → s.workerSendEnds r outcome = s →
      (s.workerSendEnds r outcome).traffic =
        s.traffic.after r [] (s.ended? (.sendEnds .worker outcome)).toList := by
    intro hnone hs
    rw [hs, ended?, hnone, Option.map_none, Option.toList_none, Traffic.after_nil]
  cases worker with
  | absent => exact hidle (by rw [outgoing?, hw]) (by rw [workerSendEnds, hw])
  | ready fresh batch => exact hidle (by rw [outgoing?, hw]) (by rw [workerSendEnds, hw])
  | parked batch since deadline =>
    exact hidle (by rw [outgoing?, hw]) (by rw [workerSendEnds, hw])
  | gone => exact hidle (by rw [outgoing?, hw]) (by rw [workerSendEnds, hw])
  | sending batch message last =>
    have hended : s.ended? (.sendEnds .worker outcome) = some ⟨.worker, message, outcome⟩ := by
      rw [ended?, outgoing?, hw]
      rfl
    have hsend := traffic_endSend r s .worker message outcome
    rw [hended, Option.toList_some, ← hsend]
    rcases workerSendEnds_of_sending r hw outcome with ⟨-, hs⟩ | ⟨notices, crashed, hs⟩
    · rw [hs, traffic_endCycle]
    · rw [hs, traffic_endWorker]
      rfl

theorem traffic_flushSendEnds (r : Reporter) (s : State) (id : Nat) (outcome : Outcome) :
    (s.flushSendEnds r id outcome).traffic =
      s.traffic.after r [] (s.ended? (.sendEnds (.call id) outcome)).toList := by
  cases hf : s.flushes.find? fun f => f.id = id with
  | none =>
    rw [flushSendEnds, ended?, outgoing?, hf, Option.map_none, Option.map_none, Option.toList_none,
      Traffic.after_nil]
  | some f =>
    obtain ⟨before, after, s', -, -, -, rfl, hs⟩ := flushSendEnds_of_find r hf outcome
    have hsend := traffic_endSend r { s with flushes := before ++ after } (.call id) f.message
      outcome
    rw [ended?, outgoing?, hf, Option.map_some, Option.map_some, Option.toList_some]
    refine Eq.trans ?_ hsend
    rw [hs]
    split
    · rfl
    · exact traffic_endFlush _ id f.batch _

/-! ## Runs -/

/-- An event packs at most one batch, or ends at most one send. -/
theorem traffic_step (h : s.Reachable r) (e : Event) :
    (s.step r e).traffic = s.traffic.after r (s.bundle? r e).toList (s.ended? e).toList := by
  cases e with
  | report span => exact (traffic_report r s span).trans (Traffic.after_nil r _).symm
  | flush id => exact traffic_flush r s id
  | close id => exact (traffic_close r s id).trans (Traffic.after_nil r _).symm
  | drop => exact (traffic_drop s).trans (Traffic.after_nil r _).symm
  | workerTurn => exact traffic_workerTurn h
  | closeTurn id => exact (traffic_closeTurn r s id).trans (Traffic.after_nil r _).symm
  | sendEnds sender outcome =>
    cases sender with
    | worker => exact traffic_workerSendEnds r s outcome
    | call id => exact traffic_flushSendEnds r s id outcome
  | pass time => exact (Traffic.after_nil r _).symm

theorem bundles_concat (r : Reporter) (s : State) (events : List Event) (e : Event) :
    bundles r s (events ++ [e]) = bundles r s events ++ ((s.run r events).bundle? r e).toList := by
  induction events generalizing s with
  | nil => exact List.append_nil _
  | cons first rest ih =>
    rw [List.cons_append, bundles, bundles, ih, List.append_assoc]
    rfl

/-- The traffic of a run is that of the batches it packed and the sends that ended in it. -/
theorem traffic_run (r : Reporter) (events : List Event) :
    let s := (initial r).run r events
    s.traffic = ({} : Traffic).after r (bundles r (initial r) events) s.journal.endings := by
  refine run_induction (P := fun events s => s.traffic =
    ({} : Traffic).after r (bundles r (initial r) events) s.journal.endings) rfl ?_ events
  intro events e ih
  have hstep := traffic_step (r := r) ⟨events, rfl⟩ e
  have hendings := congrArg Traffic.endings hstep
  rw [bundles_concat, hstep, ih, Traffic.after_after]
  rw [show (((initial r).run r events).step r e).journal.endings = _ from hendings]
  rfl

/-! ## What is in a bundle -/

/-- Packing leaves a part of the batch behind. -/
theorem slots_of_dispatch (hd : s.dispatch r batch = (s', batch', message)) :
    batch'.slots.Sublist batch.slots := by
  cases hp : s.packs batch with
  | false =>
    rw [dispatch_of_not_packs hp] at hd
    cases hd
    exact List.Sublist.refl _
  | true =>
    obtain ⟨taken, left, overflow, hsplit, he⟩ := dispatch_splits r hp
    rw [he] at hd
    cases hd
    rw [hsplit.slots_eq]
    exact List.sublist_append_right _ _

theorem bundleOf?_eq_some {sender : Sender} {b : Bundle} :
    s.bundleOf? sender batch = some b ↔
      s.packs batch = true ∧ b = ⟨sender, batch.slots, s.now⟩ := by
  rw [bundleOf?]
  split
  · next hp => simp [hp, eq_comm]
  · next hp => simp [hp]

/-- A bundle is a batch in order that is not empty, and its spans were with the worker or in the
queue. -/
theorem Reachable.batch_of_bundle (h : s.Reachable r) {e : Event} {b : Bundle}
    (hb : s.bundle? r e = some b) :
    ∃ (batch : Batch Parcel) (timeout : Duration),
      batch.MadeFor r timeout ∧ batch.slots = b.slots ∧ b.slots ≠ []
      ∧ b.slots.Sublist (s.worker.held ++ s.intake.queue.slots) := by
  cases e with
  | workerTurn =>
    rw [bundle?] at hb
    rcases hf : s.fill r with s' | ⟨s', batch, last⟩ | ⟨s', batch⟩
    · rw [hf] at hb
      cases hb
    · rw [hf] at hb
      obtain ⟨hp, rfl⟩ := bundleOf?_eq_some.1 hb
      obtain ⟨start, taken, left, hl⟩ := loads_of_fill hf
      obtain ⟨hslots, hqueue⟩ := hl.slots_eq
      refine ⟨batch, r.messageTimeout, h.madeFor_of_fill hf, rfl, slots_ne_nil_of_packs hp, ?_⟩
      rw [Worker.held_of_batch? hl.batch_eq, hqueue, ← List.append_assoc, ← hslots]
      exact List.sublist_append_left _ _
    · rw [hf] at hb
      cases hb
  | flush id =>
    rw [bundle?] at hb
    split at hb
    · cases hb
    · obtain ⟨hp, rfl⟩ := bundleOf?_eq_some.1 hb
      obtain ⟨batch, left, hdrains, -, hbatch⟩ := flushDrain_eq r s
      rw [hbatch] at hp ⊢
      refine ⟨batch, 0, .of_drains hdrains, rfl, slots_ne_nil_of_packs hp, ?_⟩
      rw [← hdrains.append_eq]
      exact (List.sublist_append_left _ _).trans (List.sublist_append_right _ _)
  | _ => cases hb

/-- Each batch that a run packs is packed by one of its events. -/
theorem exists_bundle_of_mem (h : s.Reachable r) {events : List Event} {b : Bundle}
    (hb : b ∈ bundles r s events) :
    ∃ (t : State) (e : Event), t.Reachable r ∧ t.bundle? r e = some b := by
  induction events generalizing s with
  | nil => cases hb
  | cons e rest ih =>
    rcases List.mem_append.1 hb with hmem | hmem
    · exact ⟨s, e, h, Option.mem_toList.1 hmem⟩
    · exact ih (h.step e) hmem

end State

/-- What is in the batch of the worker and in the queue is all like this. -/
def Dock.Every (Q : Slot Parcel → Prop) (d : Dock) : Prop :=
  ∀ slot ∈ d.worker.held ++ d.slots, Q slot

namespace Dock.Every

variable {r : Reporter} {Q : Slot Parcel → Prop} {d d' : Dock}

theorem of_sublist (h : d.Every Q)
    (hs : (d'.worker.held ++ d'.slots).Sublist (d.worker.held ++ d.slots)) : d'.Every Q :=
  fun slot hmem => h slot (hs.subset hmem)

theorem happens (hQ : ∀ serial span, Q ⟨⟨serial, r.encoder.encode span⟩, r.encoder.size span⟩)
    (hd : d.Happens r d') (h : d.Every Q) : d'.Every Q := by
  cases hd with
  | pass now goes => exact h
  | hire => exact h.of_sublist (List.sublist_append_right _ _)
  | refuse => exact h
  | enqueue span isOpen fits =>
    intro slot hmem
    rcases List.mem_append.1 hmem with hheld | hqueued
    · exact h slot (List.mem_append_left _ hheld)
    · rcases List.mem_append.1 hqueued with hold | hnew
      · exact h slot (List.mem_append_right _ hold)
      · rw [List.mem_singleton] at hnew
        rw [hnew]
        exact hQ d.reported span
  | flush batch left isOpen drains =>
    refine h.of_sublist ((List.Sublist.refl _).append ?_)
    rw [← drains.append_eq]
    exact List.sublist_append_right _ _
  | shut => exact h
  | clear isClosed => exact h.of_sublist ((List.Sublist.refl _).append (List.nil_sublist _))
  | sent batch message sending =>
    refine h.of_sublist ?_
    rw [sending]
    exact List.Sublist.refl _
  | leave => exact h.of_sublist ((List.nil_sublist _).append (List.Sublist.refl _))

theorem workerTurn {s : State} (h : s.dock.Every Q) : (s.workerTurn r).dock.Every Q := by
  rcases State.dock_workerTurn r s with hsame | ⟨fresh, batch, hready, -, -, -, hturn⟩ |
    ⟨start, taken, left, s₁, batch, last, s₂, batch₂, message, hl, hd, hturn⟩ |
    ⟨batch, slot, left, signal, -, hspill, hturn⟩
  · rw [hsame]
    exact h
  · refine h.of_sublist ?_
    rw [hturn, show s.dock.worker = _ from hready]
    exact List.Sublist.refl _
  · obtain ⟨hslots, hqueue⟩ := hl.slots_eq
    obtain ⟨signal, hdock⟩ := hl.dock_eq
    have hheld : (Worker.onward batch₂ message last).held.Sublist batch₂.slots := by
      rw [Worker.onward]
      split
      · split
        · exact List.nil_sublist _
        · exact List.Sublist.refl _
      · exact List.Sublist.refl _
    refine h.of_sublist ?_
    rw [hturn, hdock]
    show ((Worker.onward batch₂ message last).held ++ left).Sublist
      (s.worker.held ++ s.intake.queue.slots)
    -- what the drain took has left the queue for the batch
    rw [Worker.held_of_batch? hl.batch_eq, hqueue, ← List.append_assoc, ← hslots]
    exact (hheld.trans (State.slots_of_dispatch hd)).append (List.Sublist.refl _)
  · refine h.of_sublist ?_
    rw [hturn]
    exact (List.nil_sublist _).append hspill.left_sublist

end Dock.Every

namespace State

variable {r : Reporter} {s : State}

/-- What holds of every span as it is queued holds of all that is queued and all that the worker
holds. -/
theorem Reachable.every {Q : Slot Parcel → Prop}
    (hQ : ∀ serial span, Q ⟨⟨serial, r.encoder.encode span⟩, r.encoder.size span⟩)
    (h : s.Reachable r) : s.dock.Every Q :=
  h.dock_induction (P := Dock.Every Q) (fun _ hmem => by cases hmem)
    (fun _ _ hd hp => hp.happens hQ hd) fun _ _ hp => hp.workerTurn

/-- With an encoder that announces what it writes, spans are packed with the size of their bytes. -/
theorem exact_of_mem_bundles (he : r.encoder.Exact) {events : List Event} {b : Bundle}
    (hb : b ∈ bundles r (initial r) events) : ∀ slot ∈ b.slots, slot.Exact := by
  obtain ⟨t, e, ht, hbundle⟩ := exists_bundle_of_mem (reachable_initial r) hb
  obtain ⟨-, -, -, -, -, hsub⟩ := ht.batch_of_bundle hbundle
  have hevery : t.dock.Every Slot.Exact := ht.every fun _ span => he span
  exact fun slot hmem => hevery slot (hsub.subset hmem)

/-- If the transport sizes messages as the encoder does, it takes every batch whole. -/
theorem whole_of_mem_bundles (hplain : r.SizesPlainly) (he : r.encoder.Exact)
    {events : List Event} {b : Bundle} (hb : b ∈ bundles r (initial r) events) : b.Whole r := by
  have hexact := exact_of_mem_bundles he hb
  obtain ⟨t, e, ht, hbundle⟩ := exists_bundle_of_mem (reachable_initial r) hb
  obtain ⟨batch, timeout, hmade, hslots, hne, -⟩ := ht.batch_of_bundle hbundle
  rw [← hslots] at hexact hne
  rw [Bundle.Whole, Bundle.message, ← hslots]
  exact longestFit_eq_self fun _ _ hsplit _ => carries_front hplain hmade hexact hne hsplit

/-! ## Counts -/

theorem slots_ne_nil_of_mem_bundles {events : List Event} {b : Bundle}
    (hb : b ∈ bundles r (initial r) events) : b.slots ≠ [] := by
  obtain ⟨t, e, ht, hbundle⟩ := exists_bundle_of_mem (reachable_initial r) hb
  obtain ⟨-, -, -, -, hne, -⟩ := ht.batch_of_bundle hbundle
  exact hne

/-- Batches that the transport takes whole are handed over one by one. -/
theorem handovers_of_whole {packed : List Bundle} (hwhole : ∀ b ∈ packed, b.Whole r)
    (hne : ∀ b ∈ packed, b.slots ≠ []) :
    packed.filterMap (Bundle.handover? r) =
      packed.map fun b => ⟨b.sender, b.slots.map Slot.item, b.time⟩ := by
  rw [← List.filterMap_eq_map']
  refine List.filterMap_congr fun b hb => ?_
  have hmessage : b.message r = b.slots.map Slot.item := hwhole b hb
  rw [Bundle.handover?, hmessage, if_neg (mt List.map_eq_nil_iff.1 (hne b hb))]

/-- A send that failed has just one kind, and any other has none. -/
theorem sum_kind_eq (e : Ending) :
    (TransportError.Kind.all.map fun kind => if e.kind? = some kind then 1 else 0).sum =
      if e.fails then 1 else 0 := by
  rw [Ending.kind?, Ending.fails]
  cases e.outcome with
  | sent => rfl
  | crashed => rfl
  | failed error =>
    show (TransportError.Kind.all.map fun kind => if some error.kind = some kind then 1 else 0).sum
      = 1
    cases error.kind <;> rfl

theorem sum_countP_kind (endings : List Ending) :
    (TransportError.Kind.all.map fun kind => endings.countP fun e => e.kind? = some kind).sum =
      endings.countP Ending.fails := by
  induction endings with
  | nil => rfl
  | cons e rest ih =>
    have hone := sum_kind_eq e
    simp only [TransportError.Kind.all, List.map_cons, List.map_nil, List.sum_cons, List.sum_nil,
      List.countP_cons, decide_eq_true_eq] at ih hone ⊢
    omega

/-- If every kind has a count, all lost messages are their sum. -/
theorem allMessagesDropped_eq {m : Metrics} {count : TransportError.Kind → Nat}
    (h : ∀ kind, m.messagesDropped kind = UInt64.ofNat (count kind)) :
    m.allMessagesDropped = UInt64.ofNat (TransportError.Kind.all.map count).sum := by
  simp only [Metrics.allMessagesDropped, TransportError.Kind.all, List.foldl_cons, List.foldl_nil,
    List.map_cons, List.map_nil, List.sum_cons, List.sum_nil, h, UInt64.ofNat_add]
  simp [UInt64.add_assoc]

/-- The counters of messages tell of the batches that were packed: one message for each, with the
size of the whole batch, whatever came out of it. What was handed over is what the transport took of
them, if it was anything. Lost messages are the sends that failed, each under its kind. Only if the
transport takes every batch whole do the counters tell of what was handed over; and so it is if it
sizes messages as the encoder does, and the encoder announces what it writes. -/
theorem metrics_count_bundles (r : Reporter) (events : List Event) :
    let s := (initial r).run r events
    let packed := bundles r (initial r) events
    s.metrics.messages = UInt64.ofNat packed.length
      ∧ s.metrics.messageBytes = UInt64.ofNat (packed.map (Bundle.bytes r)).sum
      ∧ s.journal.handovers = packed.filterMap (Bundle.handover? r)
      ∧ (∀ kind, s.metrics.messagesDropped kind =
          UInt64.ofNat (s.journal.endings.countP fun e => e.kind? = some kind))
      ∧ s.metrics.allMessagesDropped = UInt64.ofNat (s.journal.endings.countP Ending.fails)
      ∧ ((∀ b ∈ packed, b.Whole r) →
          s.metrics.messages = UInt64.ofNat s.journal.handovers.length
            ∧ (r.encoder.Exact → s.metrics.messageBytes =
                UInt64.ofNat (s.journal.handovers.map (Handover.bytes r)).sum))
      ∧ (r.SizesPlainly → r.encoder.Exact → ∀ b ∈ packed, b.Whole r) := by
  intro s packed
  have htraffic : s.traffic = ({} : Traffic).after r packed s.journal.endings :=
    traffic_run r events
  have hmessages : s.metrics.messages = UInt64.ofNat packed.length :=
    (congrArg Traffic.messages htraffic).trans (UInt64.zero_add _)
  have hbytes : s.metrics.messageBytes = UInt64.ofNat (packed.map (Bundle.bytes r)).sum :=
    (congrArg Traffic.bytes htraffic).trans (UInt64.zero_add _)
  have hhandovers : s.journal.handovers = packed.filterMap (Bundle.handover? r) :=
    congrArg Traffic.handovers htraffic
  have hdropped : ∀ kind, s.metrics.messagesDropped kind =
      UInt64.ofNat (s.journal.endings.countP fun e => e.kind? = some kind) := fun kind =>
    (congrFun (congrArg Traffic.dropped htraffic) kind).trans (UInt64.zero_add _)
  refine ⟨hmessages, hbytes, hhandovers, hdropped, ?_, fun hwhole => ?_, fun hplain he b hb =>
    whole_of_mem_bundles hplain he hb⟩
  · rw [allMessagesDropped_eq hdropped, sum_countP_kind]
  · rw [handovers_of_whole hwhole fun b hb => slots_ne_nil_of_mem_bundles hb] at hhandovers
    refine ⟨?_, fun he => ?_⟩
    · rw [hmessages, hhandovers, List.length_map]
    · have hsizes : ∀ b ∈ packed,
          Handover.bytes r ⟨b.sender, b.slots.map Slot.item, b.time⟩ = b.bytes r := by
        intro b hb
        have hexact := Slot.sizes_of_exact (exact_of_mem_bundles he hb)
        rw [Bundle.bytes, ← hexact, Handover.bytes, Encoding.messageSize, List.map_map]
        rfl
      rw [hbytes, hhandovers, List.map_map]
      exact congrArg (fun sizes : List Nat => UInt64.ofNat sizes.sum)
        (List.map_congr_left fun b hb => (hsizes b hb).symm)

end State

/-- Spans that are encoded as their names, in messages of two bytes. -/
def Reporter.pairs : Reporter where
  encoder := .nameOnly .proto3
  transport := .memory .proto3 Transport.usualMaxBytes
  messageMaxBytes := 2
  messageTimeout := 10
  closeTimeout := 5
  queuedMaxSpans := 4
  queuedMaxBytes := none

/-- A run that packs two batches and loses the message of the first. -/
def Event.twoBatches : List Event :=
  let span : Span := { (default : Span) with name := some "a" }
  [.report span, .report span, .report span, .workerTurn, .flush 1,
    .sendEnds .worker (.failed .timeout), .sendEnds (.call 1) .sent]

theorem State.twoBatches_counted :
    let s := (initial .pairs).run .pairs Event.twoBatches
    s.metrics.messages = 2
      ∧ s.metrics.messages = UInt64.ofNat s.journal.handovers.length
      ∧ s.metrics.messageBytes = UInt64.ofNat (s.journal.handovers.map (Handover.bytes .pairs)).sum
      ∧ s.metrics.allMessagesDropped = 1 := by
  intro s
  have hplain : Reporter.pairs.SizesPlainly := ⟨rfl, rfl⟩
  have hexact : Reporter.pairs.encoder.Exact := Encoder.nameOnly_exact .proto3
  obtain ⟨-, -, -, -, hdropped, hcount, hwhole⟩ := metrics_count_bundles .pairs Event.twoBatches
  obtain ⟨hmessages, hbytes⟩ := hcount (hwhole hplain hexact)
  refine ⟨?_, hmessages, hbytes hexact, ?_⟩
  · exact hmessages.trans (by decide +kernel)
  · exact hdropped.trans (by decide +kernel)

/-- An order for a transport that counts ten bytes more for every span. -/
def Order.bulky : Order where
  transport := .padded .proto3 Transport.usualMaxBytes 10 none
  settings := { messageMaxBytes := some 5, messageTimeout := 0 }
  encoder := some (.nameOnly .proto3)

/-- What is built from it. -/
def Reporter.bulky : Reporter where
  encoder := .nameOnly .proto3
  transport := .padded .proto3 Transport.usualMaxBytes 10 none
  messageMaxBytes := 5
  messageTimeout := 0
  closeTimeout := Duration.second
  queuedMaxSpans := 10000
  queuedMaxBytes := some (4 * 1024 * 1024)

/-- A message is counted, with its one byte, although nothing is handed over: the transport finds
the only span too much, and it is lost. -/
theorem State.bulky_counts_nothing :
    let span : Span := { (default : Span) with name := some "a" }
    let s := (initial .bulky).run .bulky [.report span, .flush 1]
    Order.bulky.build = .ok .bulky
      ∧ s.journal.handovers = []
      ∧ s.journal.lost = [0]
      ∧ s.metrics.messages = 1
      ∧ s.metrics.messages ≠ UInt64.ofNat s.journal.handovers.length
      ∧ s.metrics.messageBytes = 1
      ∧ s.metrics.messageBytes ≠
        UInt64.ofNat (s.journal.handovers.map (Handover.bytes .bulky)).sum := by
  intro span s
  refine ⟨rfl, ?_, ?_, ?_, ?_, ?_, ?_⟩
  all_goals decide +kernel

end SpanCourier
