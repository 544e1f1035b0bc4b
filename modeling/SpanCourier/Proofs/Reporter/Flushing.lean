import SpanCourier.Proofs.Reporter.Counting
import SpanCourier.Proofs.Reporter.Plan

set_option autoImplicit false

/-! # One flush

A flush goes through three cuts. It drains the longest front part of the queue that is within the
limit, by the sizes that the spans were reported with; its message is the longest front part of
this that the transport carries; and what the message does not take is lost. The sizes of the
transport need not grow with the message, so "longest" is meant of parts all of whose front parts
fit (`LongestFront`). All this is about queues of which a drain needs only sums of 64 bits
(`Reporter.SumsInWord`).

A flush does this in two events: it is called, and its send ends. Other events may come between the
two. What is written down of a call (`State.footprint`) they leave alone (`State.footprint_run`), so
it is enough to say what the two events do.
-/

namespace SpanCourier

/-! ## What a call leaves in the records -/

/-- An event is one of this call. -/
def Event.isOf (id : Nat) : Event → Bool
  | .flush other => other = id
  | .close other => other = id
  | .closeTurn other => other = id
  | .sendEnds (.call other) _ => other = id
  | _ => false

/-- All that is written down of one call: its sends under way, what it has handed over, how its
sends have ended, and what it has returned. -/
structure Footprint where
  flushes : List Flush
  handovers : List Handover
  endings : List Ending
  returns : List Return

/-- The footprint of a call. -/
def State.footprint (s : State) (id : Nat) : Footprint where
  flushes := s.flushes.filter fun f => f.id = id
  handovers := s.journal.handovers.filter fun h => h.sender = .call id
  endings := s.journal.endings.filter fun e => e.sender = .call id
  returns := s.returns.filter fun x => x.id = id

namespace State

variable {r : Reporter} {s s' : State} {batch batch' : Batch Parcel} {message : List Parcel}

theorem footprint_endFlush (s : State) (caller : Nat) (batch : Batch Parcel)
    (error : Option ReporterError) (id : Nat) :
    (s.endFlush caller batch error).footprint id =
      { s.footprint id with
        returns := (s.footprint id).returns
          ++ if caller = id then [⟨caller, s.now, .flushed error⟩] else [] } := by
  rw [endFlush_eq]
  simp [footprint, List.filter_append, List.filter_singleton]

theorem footprint_endSend (r : Reporter) (s : State) (sender : Sender) (message : List Parcel)
    (outcome : Outcome) (id : Nat) :
    (s.endSend r sender message outcome).footprint id =
      { s.footprint id with
        endings := (s.footprint id).endings
          ++ if sender = .call id then [⟨sender, message, outcome⟩] else [] } := by
  cases outcome with
  | sent => simp [endSend, footprint, List.filter_append, List.filter_singleton]
  | crashed => simp [endSend, footprint, List.filter_append, List.filter_singleton]
  | failed error =>
    rw [endSend_failed]
    simp [footprint, List.filter_append, List.filter_singleton]

theorem footprint_endWorker (s : State) (batch : Batch Parcel) (crashed : Bool) (id : Nat) :
    (s.endWorker batch crashed).footprint id = s.footprint id := by
  rw [endWorker_eq]
  rfl

theorem footprint_endCycle (s : State) (batch : Batch Parcel) (last : Bool) (id : Nat) :
    (s.endCycle batch last).footprint id = s.footprint id := by
  cases last with
  | true => exact footprint_endWorker s batch false id
  | false => rfl

theorem footprint_finish_other (s : State) {caller id : Nat} (h : caller ≠ id)
    (result : CallResult) : (s.finish caller result).footprint id = s.footprint id := by
  simp [finish, footprint, List.filter_append, h]

theorem footprint_endClose_other (s : State) {caller id : Nat} (h : caller ≠ id) :
    (s.endClose caller).footprint id = s.footprint id := by
  rw [endClose_eq]
  simp [footprint, List.filter_append, h]

/-- Packing neither hands anything over nor ends a send. -/
theorem footprint_dispatch (hd : s.dispatch r batch = (s', batch', message)) (id : Nat) :
    s'.footprint id = s.footprint id := by
  obtain ⟨metrics, notices, lost, rfl⟩ := dispatch_frame hd
  rfl

/-! ## Events of others -/

theorem footprint_report (r : Reporter) (s : State) (span : Span) (id : Nat) :
    (s.report r span).footprint id = s.footprint id := by
  obtain ⟨started, latch, worker, hs⟩ := startWorker_frame r s
  rcases report_cases r s span with ⟨-, hr⟩ | ⟨-, intake, -, hr⟩
  · rw [hr, lose_eq, hs]
    rfl
  · rw [hr, hs]
    rfl

theorem footprint_flush_other (r : Reporter) (s : State) {caller id : Nat} (h : caller ≠ id) :
    (s.flush r caller).footprint id = s.footprint id := by
  rcases flush_cases r s caller with
    ⟨-, hs⟩ | ⟨-, batch, left, signal, s', batch', message, -, hd, hs⟩
  · rw [hs]
    exact footprint_finish_other s h _
  · have hpacked : s'.footprint id = s.footprint id := footprint_dispatch hd id
    rcases hs with ⟨-, hs⟩ | ⟨-, hs⟩
    · rw [hs, footprint_endFlush, if_neg h, List.append_nil]
      exact hpacked
    · rw [hs, ← hpacked]
      simp [handOver, footprint, List.filter_append, h]

theorem footprint_close_other (r : Reporter) (s : State) {caller id : Nat} (h : caller ≠ id) :
    (s.close r caller).footprint id = s.footprint id := by
  rcases close_cases r s caller with ⟨-, hs⟩ | ⟨-, notices, hs⟩ | ⟨-, hs⟩
  · rw [hs]
    exact footprint_finish_other s h _
  · rw [hs]
    exact footprint_endClose_other _ h
  · rw [hs]
    rfl

theorem footprint_closeTurn_other (r : Reporter) (s : State) {caller id : Nat} (h : caller ≠ id) :
    (s.closeTurn r caller).footprint id = s.footprint id := by
  rcases closeTurn_cases r s caller with hs | ⟨c, notices, -, -, -, hs⟩
  · rw [hs]
  · rw [hs]
    exact footprint_endClose_other { s with notices } h

theorem footprint_drop (s : State) (id : Nat) : s.drop.footprint id = s.footprint id := by
  rw [drop]
  split
  · rfl
  · rfl

theorem footprint_workerTurn (r : Reporter) (s : State) (id : Nat) :
    (s.workerTurn r).footprint id = s.footprint id := by
  rcases workerTurn_cases r s with hs | ⟨fresh, batch, notices, -, -, -, hs⟩ |
    ⟨batch, batch₁, taken, left, signal, notices, last, -, -, -, -, hs⟩ |
    ⟨batch, slot, left, signal, notices, -, -, hs⟩
  · rw [hs]
  · rw [hs]
    rfl
  · obtain ⟨s', batch', message, hd, hsend⟩ :=
      sendBatch_cases r ({ s with notices }.drained taken left signal) batch₁ last
    have hpacked : s'.footprint id = s.footprint id := footprint_dispatch hd id
    rw [hs]
    rcases hsend with ⟨-, hsend⟩ | ⟨-, hsend⟩
    · rw [hsend, footprint_endCycle]
      exact hpacked
    · rw [hsend, ← hpacked]
      simp [handOver, footprint, List.filter_append]
  · rw [hs]
    rfl

theorem footprint_workerSendEnds (r : Reporter) (s : State) (outcome : Outcome) (id : Nat) :
    (s.workerSendEnds r outcome).footprint id = s.footprint id := by
  rcases workerSendEnds_cases r s outcome with hs | ⟨batch, message, last, -, hs⟩
  · rw [hs]
  · have hend : (s.endSend r .worker message outcome).footprint id = s.footprint id := by
      rw [footprint_endSend, if_neg (by simp), List.append_nil]
    rcases hs with ⟨-, hs⟩ | ⟨notices, crashed, hs⟩
    · rw [hs, footprint_endCycle, hend]
    · rw [hs, footprint_endWorker]
      exact hend

theorem footprint_flushSendEnds_other (r : Reporter) (s : State) {caller id : Nat}
    (h : caller ≠ id) (outcome : Outcome) :
    (s.flushSendEnds r caller outcome).footprint id = s.footprint id := by
  rcases flushSendEnds_cases r s caller outcome with hs | ⟨f, before, after, s', hf, hid, rfl, hs⟩
  · rw [hs]
  · have hend : (State.endSend r { s with flushes := before ++ after } (.call caller) f.message
        outcome).footprint id = s.footprint id := by
      rw [footprint_endSend, if_neg (by simpa using h), List.append_nil]
      simp [footprint, hf, List.filter_append, hid, h]
    rcases hs with ⟨-, hs⟩ | ⟨-, error, hs⟩
    · rw [hs, footprint_finish_other _ h, hend]
    · rw [hs, footprint_endFlush, if_neg h, List.append_nil]
      exact hend

/-- What a call leaves in the records is left alone by the events of others. -/
theorem footprint_step (r : Reporter) (s : State) {e : Event} {id : Nat} (h : e.isOf id = false) :
    (s.step r e).footprint id = s.footprint id := by
  cases e with
  | report span => exact footprint_report r s span id
  | flush caller => exact footprint_flush_other r s (of_decide_eq_false h)
  | close caller => exact footprint_close_other r s (of_decide_eq_false h)
  | drop => exact footprint_drop s id
  | workerTurn => exact footprint_workerTurn r s id
  | closeTurn caller => exact footprint_closeTurn_other r s (of_decide_eq_false h)
  | sendEnds sender outcome =>
    cases sender with
    | worker => exact footprint_workerSendEnds r s outcome id
    | call caller => exact footprint_flushSendEnds_other r s (of_decide_eq_false h) outcome
  | pass time => rfl

theorem footprint_run (r : Reporter) (s : State) {later : List Event} {id : Nat}
    (h : ∀ e ∈ later, e.isOf id = false) : (s.run r later).footprint id = s.footprint id := by
  induction later generalizing s with
  | nil => rfl
  | cons e rest ih =>
    have hrest : ∀ e ∈ rest, e.isOf id = false := fun e hmem => h e (List.mem_cons_of_mem _ hmem)
    calc (s.run r (e :: rest)).footprint id
        = ((s.step r e).run r rest).footprint id := rfl
      _ = (s.step r e).footprint id := ih (s.step r e) hrest
      _ = s.footprint id := footprint_step r s (h e List.mem_cons_self)

end State

/-! ## What is counted as dropped -/

/-- The spans that the end of a send loses. -/
def Ending.wasted (e : Ending) : List Parcel := if e.fails then e.message else []

/-- From one state to the other just these spans were counted as dropped, and one message if there
is a kind for it. -/
structure State.Drops (s s' : State) (parcels : List Parcel) (kind? : Option TransportError.Kind) :
    Prop where
  lost_eq : s'.journal.lost = s.journal.lost ++ parcels.map Parcel.serial
  spans_eq : s'.metrics.spansDropped = s.metrics.spansDropped + UInt64.ofNat parcels.length
  messages_eq : ∀ kind, s'.metrics.messagesDropped kind =
    if kind? = some kind then s.metrics.messagesDropped kind + 1
    else s.metrics.messagesDropped kind

namespace State

variable {r : Reporter} {s s₁ s' : State} {batch batch' : Batch Parcel} {message : List Parcel}

namespace Drops

theorem nothing (hl : s'.journal.lost = s.journal.lost)
    (hs : s'.metrics.spansDropped = s.metrics.spansDropped)
    (hm : s'.metrics.messagesDropped = s.metrics.messagesDropped) : s.Drops s' [] none where
  lost_eq := by rw [hl, List.map_nil, List.append_nil]
  spans_eq := by simp [hs]
  messages_eq kind := by simp [hm]

theorem trans {parcels more : List Parcel} {kind? : Option TransportError.Kind}
    (h₁ : s.Drops s₁ parcels kind?) (h₂ : s₁.Drops s' more none) :
    s.Drops s' (parcels ++ more) kind? where
  lost_eq := by rw [h₂.lost_eq, h₁.lost_eq, List.map_append, List.append_assoc]
  spans_eq := by
    rw [h₂.spans_eq, h₁.spans_eq, List.length_append, UInt64.ofNat_add, UInt64.add_assoc]
  messages_eq kind := by rw [h₂.messages_eq, ← h₁.messages_eq, if_neg (by simp)]

/-- Packing loses the parcel that was too much. -/
theorem packed (r : Reporter) (s : State) (size : Nat) (overflow : Option Parcel) :
    s.Drops (s.packed r size overflow) overflow.toList none := by
  have hdropped : (s.packed r size overflow).metrics.messagesDropped =
      s.metrics.messagesDropped := congrArg Traffic.dropped (traffic_packed r s size overflow)
  obtain ⟨metrics, notices, hs, -, hspans⟩ := packed_eq r s size overflow
  rw [hs] at hdropped ⊢
  exact ⟨rfl, hspans, fun kind => by rw [hdropped]; simp⟩

/-- A flush that returns loses what its batch still holds. -/
theorem endFlush (s : State) (id : Nat) (batch : Batch Parcel) (error : Option ReporterError) :
    s.Drops (s.endFlush id batch error) (batch.slots.map Slot.item) none := by
  rw [endFlush_eq]
  exact ⟨by simp, by simp [Metrics.record], fun kind => by simp [Metrics.record]⟩

/-- A send that fails loses its message. -/
theorem endSend (r : Reporter) (s : State) (sender : Sender) (message : List Parcel)
    (outcome : Outcome) :
    s.Drops (s.endSend r sender message outcome) (Ending.wasted ⟨sender, message, outcome⟩)
      (Ending.kind? ⟨sender, message, outcome⟩) := by
  cases outcome with
  | sent => exact .nothing rfl rfl rfl
  | crashed => exact .nothing rfl rfl rfl
  | failed error =>
    rw [endSend_failed]
    exact ⟨rfl, rfl, fun kind => by simp [Metrics.record, Ending.kind?, eq_comm]⟩

end Drops

/-! ## The two events of a flush -/

/-- A batch that is packed as soon as it holds anything falls into the message, the parcel that is
lost at once, and what stays. -/
theorem dispatch_cuts (hd : s.dispatch r batch = (s', batch', message))
    (hdue : batch.slots ≠ [] → s.packs batch = true) :
    ∃ unsent atOnce,
      LongestFront r.carries (batch.slots.map Slot.item) message unsent
      ∧ unsent = atOnce ++ batch'.slots.map Slot.item
      ∧ s.Drops s' atOnce none := by
  obtain ⟨unsent, hlongest⟩ := longestFront_longestFit r.carries (batch.slots.map Slot.item)
  by_cases hne : batch.slots = []
  · -- an empty batch is not packed, and its cut is empty
    rw [dispatch_of_not_packs (not_packs_of_empty hne)] at hd
    cases hd
    rw [hne] at hlongest ⊢
    refine ⟨unsent, [], hlongest, ?_, .nothing rfl rfl rfl⟩
    exact (List.append_eq_nil_iff.1 hlongest.append_eq.symm).2
  · -- both cuts split the same batch behind the same message
    obtain ⟨full, left, overflow, he, hsplit⟩ := dispatch_of_packs r (hdue hne)
    rw [he] at hd
    cases hd
    refine ⟨unsent, overflow.toList, hlongest, ?_, .packed r s batch.size overflow⟩
    rw [List.append_assoc] at hsplit
    exact List.append_cancel_left (hlongest.append_eq.symm.trans hsplit)

/-- A flush is called: it cuts the queue, and then it returns or has its message with the
transport. -/
theorem flush_called (r : Reporter) (s : State) (id : Nat) (hopen : s.closed = false) :
    ∃ drained left message unsent batch atOnce,
      LongestFront r.holds s.intake.queue.slots drained left
      ∧ LongestFront r.carries (drained.map Slot.item) message unsent
      ∧ unsent = atOnce ++ batch.slots.map Slot.item
      ∧ (s.flush r id).intake.queue.slots = left
      ∧ (message = [] ∧ s.Drops (s.flush r id) unsent none
          ∧ (s.flush r id).footprint id =
            { s.footprint id with
              returns := (s.footprint id).returns ++ [⟨id, s.now, .flushed none⟩] }
        ∨ message ≠ [] ∧ s.Drops (s.flush r id) atOnce none
          ∧ (s.flush r id).footprint id =
            { s.footprint id with
              flushes := (s.footprint id).flushes ++ [⟨id, batch, message⟩]
              handovers := (s.footprint id).handovers ++ [⟨.call id, message, s.now⟩] }) := by
  obtain ⟨s', batch', message, hd, hs⟩ := flush_of_open r id hopen
  obtain ⟨batch, left, hdrains, hintake, hbatch⟩ := flushDrain_eq r s
  obtain ⟨left', hdrained⟩ := longestFront_longestFit r.holds s.intake.queue.slots
  rw [Batch.longestFit_of_drains hdrains] at hdrained
  obtain rfl : left = left' :=
    List.append_cancel_left (hdrains.append_eq.trans hdrained.append_eq)
  have hqueue : (s.flushDrain r).1.queue.slots = left := by rw [hintake]
  rw [hbatch] at hd
  obtain ⟨unsent, atOnce, hmessage, hunsent, hdrops⟩ :=
    dispatch_cuts hd fun hne => packs_of_drains hdrains hne
  -- the drain of the queue counts nothing
  have hdropped : s.Drops s' atOnce none :=
    ⟨hdrops.lost_eq, hdrops.spans_eq, hdrops.messages_eq⟩
  have hprint : s'.footprint id = s.footprint id := footprint_dispatch hd id
  obtain ⟨hleft, hnow⟩ : s'.intake.queue.slots = left ∧ s'.now = s.now := by
    obtain ⟨metrics, notices, lost, rfl⟩ := dispatch_frame hd
    exact ⟨hqueue, rfl⟩
  refine ⟨batch.slots, left, message, unsent, batch', atOnce, hdrained, hmessage, hunsent, ?_⟩
  rcases hs with ⟨hm, hs⟩ | ⟨hm, hs⟩
  · rw [hs]
    refine ⟨?_, .inl ⟨hm, ?_, ?_⟩⟩
    · rw [endFlush_eq]
      exact hleft
    · rw [hunsent]
      exact hdropped.trans (.endFlush s' id batch' none)
    · rw [footprint_endFlush, if_pos rfl, hprint, hnow]
  · rw [hs]
    refine ⟨hleft, .inr ⟨hm, ?_, ?_⟩⟩
    · exact ⟨hdropped.lost_eq, hdropped.spans_eq, hdropped.messages_eq⟩
    · rw [← hprint, ← hnow]
      simp [handOver, footprint, List.filter_append]

/-- The send of a flush ends, and it returns. -/
theorem flush_ended (r : Reporter) {s : State} {id : Nat} {f : Flush} {outcome : Outcome}
    (hf : (s.footprint id).flushes = [f]) (ho : outcome ≠ .crashed) :
    let e : Ending := ⟨.call id, f.message, outcome⟩
    let s' := s.flushSendEnds r id outcome
    s.Drops s' (e.wasted ++ f.batch.slots.map Slot.item) e.kind?
      ∧ s'.footprint id =
        { s.footprint id with
          flushes := []
          endings := (s.footprint id).endings ++ [e]
          returns := (s.footprint id).returns ++ [⟨id, s.now, .flushed (flushError outcome)⟩] } := by
  intro e s'
  have hfind : (s.flushes.find? fun f => f.id = id) = some f := by
    rw [← List.head?_filter, show s.flushes.filter _ = _ from hf]
    rfl
  obtain ⟨before, after, s₁, hflushes, hid, hbefore, hs₁, hs'⟩ :=
    flushSendEnds_of_find r hfind outcome
  rw [if_neg ho] at hs'
  -- this was the only send of the call
  have hothers : (before ++ after).filter (fun f => f.id = id) = [] := by
    have hown : s.flushes.filter (fun f => f.id = id) = [f] := hf
    have hnone : before.filter (fun f => f.id = id) = [] :=
      List.filter_eq_nil_iff.2 fun g hg => by simpa using hbefore g hg
    rw [hflushes, List.filter_append, hnone, List.nil_append,
      List.filter_cons_of_pos (by simpa using hid)] at hown
    rw [List.filter_append, hnone, List.nil_append]
    exact (List.cons.inj hown).2
  have hprint : s₁.footprint id =
      { s.footprint id with flushes := [], endings := (s.footprint id).endings ++ [e] } := by
    rw [hs₁, footprint_endSend, if_pos rfl, ← hothers]
    rfl
  have hnow : s₁.now = s.now := by
    obtain ⟨metrics, notices, warned, endings, lost, hframe⟩ :=
      endSend_frame r { s with flushes := before ++ after } (.call id) f.message outcome
    rw [hs₁, hframe]
  have hend := Drops.endSend r { s with flushes := before ++ after } (.call id) f.message outcome
  rw [← hs₁] at hend
  have hdropped : s.Drops s₁ e.wasted e.kind? :=
    ⟨hend.lost_eq, hend.spans_eq, hend.messages_eq⟩
  have heq : s' = s₁.endFlush id f.batch (flushError outcome) := hs'
  rw [heq]
  refine ⟨hdropped.trans (.endFlush s₁ id f.batch _), ?_⟩
  rw [footprint_endFlush, if_pos rfl, hprint, hnow]

theorem flushError_eq (outcome : Outcome) :
    flushError outcome =
      if outcome = .failed .closed then some .transportClosed else none := by
  cases outcome with
  | sent => rfl
  | crashed => rfl
  | failed error => simp only [flushError, TransportError.isClosed_iff, Outcome.failed.injEq]

end State

/-! ## Sums in 64 bits -/

/-- A drain of these spans makes only sums of 64 bits. It adds one more span to a front part that is
within the limit. -/
def Reporter.SumsInWord (r : Reporter) (slots : List (Slot Parcel)) : Prop :=
  ∀ front slot rest, slots = front ++ slot :: rest → FrontsFit r.holds front →
    r.encoder.encoding.listSize ((front ++ [slot]).map Slot.size) ≤ wordMax

namespace Reporter.SumsInWord

variable {r : Reporter} {slots drained left : List (Slot Parcel)}

/-- It is so if the sum of all is one. -/
theorem of_total (h : r.encoder.encoding.listSize (slots.map Slot.size) ≤ wordMax) :
    r.SumsInWord slots := by
  rintro front slot rest rfl -
  refine Nat.le_trans ?_ h
  have hparts : (front ++ slot :: rest).map Slot.size =
      (front ++ [slot]).map Slot.size ++ rest.map Slot.size := by
    rw [List.append_cons, List.map_append]
  rw [hparts]
  exact r.encoder.encoding.listSize_le_append _ _

/-- The sums are those of the front parts of what is drained and of one span more, if there is any.
-/
theorem sum_le (h : r.SumsInWord slots) (hcut : LongestFront r.holds slots drained left)
    {front rest : List (Slot Parcel)} (hsplit : drained ++ left.take 1 = front ++ rest) :
    r.encoder.encoding.listSize (front.map Slot.size) ≤ wordMax := by
  rcases List.eq_nil_or_concat front with rfl | ⟨begun, slot, rfl⟩
  · exact Nat.le_trans r.encoder.encoding.emptySize_le (by decide)
  · rw [List.concat_eq_append] at hsplit ⊢
    have hslots : slots = begun ++ slot :: (rest ++ left.drop 1) := by
      calc slots = drained ++ left := hcut.append_eq
        _ = drained ++ left.take 1 ++ left.drop 1 := by
            rw [List.append_assoc, List.take_append_drop]
        _ = begun ++ slot :: (rest ++ left.drop 1) := by
            rw [hsplit]
            simp only [List.append_assoc, List.cons_append, List.nil_append]
    -- all but the last of the front part was taken
    have hlength : begun.length ≤ drained.length := by
      have hall := congrArg List.length hsplit
      have hone : (left.take 1).length ≤ 1 := List.length_take_le 1 left
      simp only [List.length_append, List.length_singleton] at hall
      omega
    have htaken : begun <+: drained := by
      refine List.prefix_of_prefix_length_le ⟨slot :: (rest ++ left.drop 1), hslots.symm⟩ ?_ hlength
      exact ⟨left, hcut.append_eq.symm⟩
    obtain ⟨more, hmore⟩ := htaken
    refine h begun slot _ hslots fun part beyond hpart hne => ?_
    exact hcut.fit part (beyond ++ more) (by rw [← hmore, hpart, List.append_assoc]) hne

end Reporter.SumsInWord

namespace State

/-- A flush of an open reporter drains the longest front part of the queue that is within the limit,
and hands over the longest front part of this that the transport carries, if there is any. What it
drained and does not hand over is lost, some of it when it is called and the rest as it returns, and
a send that fails loses the message too. It returns once, and with an error only if its send finds
the transport closed. All this does not depend on what others do in the meantime. Sizes are added up
in 64 bits, so it is about queues with which no sum needs more. -/
theorem flush_sends_longest (r : Reporter) (s : State) (id : Nat) (hopen : s.closed = false)
    (hidle : ∀ f ∈ s.flushes, f.id ≠ id) (hword : r.SumsInWord s.intake.queue.slots) :
    let t := s.flush r id
    ∃ drained left message unsent,
      LongestFront r.holds s.intake.queue.slots drained left
      ∧ (∀ front rest, drained ++ left.take 1 = front ++ rest →
          r.encoder.encoding.listSize (front.map Slot.size) ≤ wordMax)
      ∧ LongestFront r.carries (drained.map Slot.item) message unsent
      ∧ t.intake.queue.slots = left
      ∧ (message = [] →
          s.Drops t unsent none
          ∧ t.footprint id =
            { s.footprint id with
              returns := (s.footprint id).returns ++ [⟨id, s.now, .flushed none⟩] })
      ∧ (message ≠ [] →
          ∃ batch atOnce,
            unsent = atOnce ++ batch.slots.map Slot.item
            ∧ s.Drops t atOnce none
            ∧ t.footprint id =
              { s.footprint id with
                flushes := [⟨id, batch, message⟩]
                handovers := (s.footprint id).handovers ++ [⟨.call id, message, s.now⟩] }
            ∧ ∀ later outcome, (∀ e ∈ later, e.isOf id = false) → outcome ≠ .crashed →
                let e : Ending := ⟨.call id, message, outcome⟩
                let u := t.run r later
                let u' := u.step r (.sendEnds (.call id) outcome)
                u.footprint id = t.footprint id
                ∧ u.Drops u' (e.wasted ++ batch.slots.map Slot.item) e.kind?
                ∧ u'.footprint id =
                  { flushes := []
                    handovers := (s.footprint id).handovers ++ [⟨.call id, message, s.now⟩]
                    endings := (s.footprint id).endings ++ [e]
                    returns := (s.footprint id).returns ++
                      [⟨id, u.now, .flushed
                        (if outcome = .failed .closed then some .transportClosed else none)⟩] }) := by
  intro t
  obtain ⟨drained, left, message, unsent, batch, atOnce, hdrained, hmessage, hunsent, hleft, hs⟩ :=
    flush_called r s id hopen
  have hnone : (s.footprint id).flushes = [] :=
    List.filter_eq_nil_iff.2 fun f hf => by simpa using hidle f hf
  refine ⟨drained, left, message, unsent, hdrained, fun _ _ => hword.sum_le hdrained, hmessage,
    hleft, fun hm => ?_, fun hm => ?_⟩
  · rcases hs with ⟨-, hs⟩ | ⟨hne, -⟩
    · exact hs
    · exact absurd hm hne
  · rcases hs with ⟨hnil, -⟩ | ⟨-, hdrops, hprint⟩
    · exact absurd hnil hm
    · rw [hnone, List.nil_append] at hprint
      refine ⟨batch, atOnce, hunsent, hdrops, hprint, fun later outcome hlater ho => ?_⟩
      intro e u u'
      have hkept : u.footprint id = t.footprint id := footprint_run r t hlater
      have hflush : (u.footprint id).flushes = [⟨id, batch, message⟩] := by
        rw [hkept, show t.footprint id = _ from hprint]
      obtain ⟨hlost, hended⟩ := flush_ended r hflush ho
      refine ⟨hkept, hlost, ?_⟩
      rw [hkept, show t.footprint id = _ from hprint, flushError_eq] at hended
      exact hended

end State

/-- Spans that are encoded as their names, over a transport that counts one byte more for each. -/
def Reporter.cramped : Reporter where
  encoder := .nameOnly .proto3
  transport := .padded .proto3 Transport.usualMaxBytes 1 none
  messageMaxBytes := 3
  messageTimeout := 10
  closeTimeout := 5
  queuedMaxSpans := 9
  queuedMaxBytes := none

def Event.fourSpans : List Event :=
  let span : Span := { (default : Span) with name := some "a" }
  [.report span, .report span, .report span, .report span]

/-- The worker sends what a flush has left. -/
def Event.meanwhile : List Event := [.workerTurn, .pass 20, .workerTurn, .sendEnds .worker .sent]

/-- Of four spans three are within the limit, and the transport carries one of them; the worker
comes to the fourth while the flush waits for its send, which finds the transport closed. -/
theorem State.cramped_flush :
    let s := (initial .cramped).run .cramped Event.fourSpans
    let t := s.flush .cramped 7
    let u := t.run .cramped Event.meanwhile
    let u' := u.step .cramped (.sendEnds (.call 7) (.failed .closed))
    s.closed = false ∧ (∀ f ∈ s.flushes, f.id ≠ 7)
      ∧ (∀ e ∈ Event.meanwhile, e.isOf 7 = false)
      ∧ ∃ message,
        message.map Parcel.serial = [0]
        ∧ (u'.footprint 7).handovers = [⟨.call 7, message, 0⟩]
        ∧ (u'.footprint 7).returns = [⟨7, 20, .flushed (some .transportClosed)⟩]
        ∧ u'.journal.lost = [1, 0, 2] := by
  intro s t u u'
  have hopen : s.closed = false := by decide +kernel
  have hidle : ∀ f ∈ s.flushes, f.id ≠ 7 := by decide +kernel
  have hothers : ∀ e ∈ Event.meanwhile, e.isOf 7 = false := by decide +kernel
  have hbefore : (s.footprint 7).handovers = [] := by decide +kernel
  have hafter : (t.footprint 7).handovers.map (fun h => h.message.map Parcel.serial) = [[0]] := by
    decide +kernel
  have hword : Reporter.cramped.SumsInWord s.intake.queue.slots := .of_total (by decide +kernel)
  obtain ⟨drained, left, message, unsent, -, -, -, -, hnothing, hsends⟩ :=
    flush_sends_longest .cramped s 7 hopen hidle hword
  have hm : message ≠ [] := by
    intro hm
    obtain ⟨-, hprint⟩ := hnothing hm
    rw [show t.footprint 7 = _ from hprint, hbefore] at hafter
    cases hafter
  obtain ⟨batch, atOnce, -, -, hprint, hlater⟩ := hsends hm
  obtain ⟨-, -, hended⟩ := hlater Event.meanwhile (.failed .closed) hothers (by decide)
  rw [hbefore] at hprint hended
  rw [show t.footprint 7 = _ from hprint] at hafter
  refine ⟨hopen, hidle, hothers, message, (List.cons.inj hafter).1, ?_, ?_, by decide +kernel⟩
  · exact congrArg Footprint.handovers hended
  · exact congrArg Footprint.returns hended

end SpanCourier
