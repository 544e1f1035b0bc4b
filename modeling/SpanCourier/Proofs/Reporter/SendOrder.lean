import Mathlib.Data.List.Nodup
import SpanCourier.Proofs.Reporter.Accounting
import SpanCourier.Proofs.Reporter.MessageLimit

set_option autoImplicit false

/-! # Sends keep the order of reports

The worker and the flushes drain one queue, each into batches of their own. The lane of either is
what it has handed over so far, then what it holds, then what is queued. No event brings anything
into a lane but the span that is reported, which joins it at the end; all else only takes parcels
out of it (`State.lane_step`). So the lane stands in the order of reports, and with it the sends
that make up its front. Which of the two gets a span is open, and so is the order in which sends
end.

A span that was queued once is in the lane of the one who takes it, and no more in the other's: the
two lanes share the queue alone. So no span is handed over twice (`State.Reachable.handed_once`).
-/

namespace SpanCourier

/-! ## Reported spans as parcels -/

/-- Spans as parcels, numbered in this order. -/
def Reporter.parcels (r : Reporter) (spans : List Span) : List Parcel :=
  spans.zipIdx.map fun p => ⟨p.2, r.encoder.encode p.1⟩

theorem Reporter.parcels_concat (r : Reporter) (spans : List Span) (span : Span) :
    r.parcels (spans ++ [span]) = r.parcels spans ++ [⟨spans.length, r.encoder.encode span⟩] := by
  simp [parcels, List.zipIdx_append]

/-! ## Lanes -/

/-- Who drains the queue: the worker, or the flushes that are called. -/
inductive Drainer
  | worker
  | flushes
deriving DecidableEq, Repr

/-- On whose side a sender is. -/
def Sender.drainer : Sender → Drainer
  | .worker => .worker
  | .call _ => .flushes

/-- The parcels in those sends that are on the side of a drainer, in the order of the sends. -/
def Drainer.handed (d : Drainer) (handovers : List Handover) : List Parcel :=
  (handovers.filter fun h => h.sender.drainer = d).flatMap Handover.message

theorem Drainer.handed_concat (d : Drainer) (handovers : List Handover) (h : Handover) :
    d.handed (handovers ++ [h]) =
      d.handed handovers ++ if h.sender.drainer = d then h.message else [] := by
  by_cases hd : h.sender.drainer = d
  · simp [handed, hd]
  · simp [handed, hd]

namespace State

/-- The parcels that a drainer holds between two events. A flush holds none, for what its message
could not carry is lost. -/
def holds (s : State) : Drainer → List Parcel
  | .worker => s.worker.held.map Slot.item
  | .flushes => []

/-- What a drainer has handed over, then what it holds, then what is queued. -/
def lane (d : Drainer) (s : State) : List Parcel :=
  d.handed s.journal.handovers ++ s.holds d ++ s.queued

variable {r : Reporter} {s s' : State} {d : Drainer} {batch : Batch Parcel}

theorem lane_of_eq (h : s' = s) : (s'.lane d).Sublist (s.lane d) := by
  subst h
  exact List.Sublist.refl _

/-- Without a new send a lane gets no parcel. -/
theorem lane_sublist (hh : s'.journal.handovers = s.journal.handovers)
    (hw : s'.worker.held.Sublist s.worker.held)
    (hq : s'.intake.queue.slots.Sublist s.intake.queue.slots) : (s'.lane d).Sublist (s.lane d) := by
  have hholds : (s'.holds d).Sublist (s.holds d) := by
    cases d with
    | worker => exact hw.map _
    | flushes => exact List.Sublist.refl _
  rw [lane, lane, hh]
  exact ((List.Sublist.refl _).append hholds).append (hq.map _)

/-! ## What the events do to a lane -/

/-- What packing makes of a batch, the message and then what stays, stood in the batch in this
order. -/
theorem sublist_of_dispatch {batch' : Batch Parcel} {message : List Parcel}
    (h : s.dispatch r batch = (s', batch', message)) :
    (message ++ batch'.slots.map Slot.item).Sublist (batch.slots.map Slot.item) := by
  cases hp : s.packs batch with
  | false =>
    rw [dispatch_of_not_packs hp] at h
    cases h
    exact List.Sublist.refl _
  | true =>
    obtain ⟨full, left, overflow, he, hparts⟩ := dispatch_of_packs r hp
    rw [he] at h
    cases h
    -- only the parcel that was too much is missing
    generalize longestFit r.carries (batch.slots.map Slot.item) = message at hparts ⊢
    rw [hparts]
    exact (List.sublist_append_left _ _).append (List.Sublist.refl _)

/-- The worker sends its batch: its lane loses what was too much for the message, and the lane of
the flushes nothing. -/
theorem lane_sendBatch (r : Reporter) (s : State) (batch : Batch Parcel) (last : Bool) :
    ((s.sendBatch r batch last).lane .worker).Sublist
        (Drainer.worker.handed s.journal.handovers ++ batch.slots.map Slot.item ++ s.queued)
      ∧ (s.sendBatch r batch last).lane .flushes = s.lane .flushes := by
  obtain ⟨s', batch', message, hd, hs⟩ := sendBatch_cases r s batch last
  have hparts := sublist_of_dispatch hd
  obtain ⟨metrics, notices, lost, rfl⟩ := dispatch_frame hd
  rcases hs with ⟨hm, hs⟩ | ⟨-, hs⟩
  · rw [hm, List.nil_append] at hparts
    obtain ⟨worker, latch, metrics', notices', lost', he, hheld⟩ := endCycle_frame
      { s with metrics, notices, journal := { s.journal with lost } } batch' last
    rw [hs, he]
    constructor
    · exact ((List.Sublist.refl _).append ((hheld.map _).trans hparts)).append
        (List.Sublist.refl _)
    · rfl
  · constructor
    · rw [hs]
      show (Drainer.worker.handed (s.journal.handovers ++ [⟨.worker, message, s.now⟩])
        ++ batch'.slots.map Slot.item ++ s.queued).Sublist _
      rw [Drainer.handed_concat, if_pos (by rfl), List.append_assoc (Drainer.worker.handed _)]
      exact ((List.Sublist.refl _).append hparts).append (List.Sublist.refl _)
    · rw [hs]
      show Drainer.flushes.handed (s.journal.handovers ++ [⟨.worker, message, s.now⟩])
        ++ [] ++ s.queued = _
      rw [Drainer.handed_concat, if_neg (by simp [Sender.drainer]), List.append_nil]
      rfl

theorem lane_workerTurn (r : Reporter) (s : State) (d : Drainer) :
    ((s.workerTurn r).lane d).Sublist (s.lane d) := by
  rcases workerTurn_cases r s with hs | ⟨fresh, batch, notices, hw, -, -, hs⟩ |
    ⟨batch, batch', taken, left, signal, notices, last, hb, hq, hslots, -, hs⟩ |
    ⟨batch, slot, left, signal, notices, -, hspill, hs⟩
  · exact lane_of_eq hs
  · rw [hs]
    refine lane_sublist rfl ?_ (List.Sublist.refl _)
    rw [hw]
    exact List.Sublist.refl _
  · have hqueued : s.queued = taken.map Slot.item ++ left.map Slot.item := by
      rw [queued, hq, List.map_append]
    obtain ⟨hworker, hflushes⟩ :=
      lane_sendBatch r (State.drained { s with notices } taken left signal) batch' last
    rw [hs]
    cases d with
    | worker =>
      have hheld : s.worker.held = batch.slots := Worker.held_of_batch? hb
      -- what was taken has passed from the front of the queue to the end of the batch
      have hlane : s.lane .worker = Drainer.worker.handed s.journal.handovers
          ++ batch'.slots.map Slot.item ++ left.map Slot.item := by
        rw [lane, holds, hheld, hqueued, hslots, List.map_append]
        simp only [List.append_assoc]
      rw [hlane]
      exact hworker
    | flushes =>
      rw [hflushes, lane, lane, hqueued]
      exact (List.Sublist.refl _).append (List.sublist_append_right _ _)
  · rw [hs]
    exact lane_sublist rfl (List.nil_sublist _) hspill.left_sublist

theorem lane_workerSendEnds (r : Reporter) (s : State) (outcome : Outcome) (d : Drainer) :
    ((s.workerSendEnds r outcome).lane d).Sublist (s.lane d) := by
  rcases workerSendEnds_cases r s outcome with hs | ⟨batch, message, last, hw, hs⟩
  · exact lane_of_eq hs
  · obtain ⟨metrics, notices₁, warned, endings, lost, he⟩ :=
      endSend_frame r s .worker message outcome
    have hheld : s.worker.held = batch.slots := by rw [hw]; rfl
    rw [he] at hs
    rcases hs with ⟨-, hs⟩ | ⟨notices, crashed, hs⟩
    · obtain ⟨worker, latch, metrics', notices', lost', hcycle, hkept⟩ := endCycle_frame
        { s with
          metrics, notices := notices₁, warned, journal := { s.journal with endings, lost } }
        batch last
      rw [hs, hcycle]
      refine lane_sublist rfl ?_ (List.Sublist.refl _)
      rw [hheld]
      exact hkept
    · rw [hs, endWorker_eq]
      exact lane_sublist rfl (List.nil_sublist _) (List.Sublist.refl _)

/-- A flush takes parcels from the front of the queue, and what it does not send is lost. -/
theorem lane_flush (r : Reporter) (s : State) (id : Nat) (d : Drainer) :
    ((s.flush r id).lane d).Sublist (s.lane d) := by
  rcases flush_cases r s id with
    ⟨-, hs⟩ | ⟨-, batch, left, signal, s', batch', message, hq, hd, hs⟩
  · rw [hs]
    exact List.Sublist.refl _
  · have hmessage := (List.sublist_append_left _ _).trans (sublist_of_dispatch hd)
    have hqueued : s.queued = batch.slots.map Slot.item ++ left.map Slot.item := by
      rw [queued, hq, List.map_append]
    have hleft : left.Sublist s.intake.queue.slots := by
      rw [hq]
      exact List.sublist_append_right _ _
    obtain ⟨metrics, notices, lost, rfl⟩ := dispatch_frame hd
    rcases hs with ⟨-, hs⟩ | ⟨-, hs⟩
    · rw [hs, endFlush_eq]
      exact lane_sublist rfl (List.Sublist.refl _) hleft
    · rw [hs]
      cases d with
      | worker =>
        show (Drainer.worker.handed (s.journal.handovers ++ [⟨.call id, message, s.now⟩])
          ++ s.holds .worker ++ left.map Slot.item).Sublist (s.lane .worker)
        rw [Drainer.handed_concat, if_neg (by simp [Sender.drainer]), List.append_nil]
        exact (List.Sublist.refl _).append (hleft.map _)
      | flushes =>
        let handover : Handover := ⟨.call id, message, s.now⟩
        show (Drainer.flushes.handed (s.journal.handovers ++ [handover])
          ++ [] ++ left.map Slot.item).Sublist
            (Drainer.flushes.handed s.journal.handovers ++ [] ++ s.queued)
        rw [Drainer.handed_concat, if_pos (by rfl), hqueued]
        simp only [List.append_nil, List.append_assoc]
        exact (List.Sublist.refl _).append (hmessage.append (List.Sublist.refl _))

theorem lane_flushSendEnds (r : Reporter) (s : State) (id : Nat) (outcome : Outcome)
    (d : Drainer) : ((s.flushSendEnds r id outcome).lane d).Sublist (s.lane d) := by
  obtain ⟨flushes, metrics, notices, warned, returns, endings, lost, hs⟩ :=
    flushSendEnds_frame r s id outcome
  rw [hs]
  exact List.Sublist.refl _

/-- A close that returns clears the queue. -/
theorem lane_endClose (s : State) (id : Nat) (d : Drainer) :
    ((s.endClose id).lane d).Sublist (s.lane d) := by
  rw [endClose_eq]
  exact lane_sublist rfl (List.Sublist.refl _) (List.nil_sublist _)

theorem lane_close (r : Reporter) (s : State) (id : Nat) (d : Drainer) :
    ((s.close r id).lane d).Sublist (s.lane d) := by
  rcases close_cases r s id with ⟨-, hs⟩ | ⟨-, notices, hs⟩ | ⟨-, hs⟩
  · rw [hs]
    exact List.Sublist.refl _
  · rw [hs]
    exact lane_endClose { s.shut with notices } id d
  · rw [hs]
    exact List.Sublist.refl _

theorem lane_closeTurn (r : Reporter) (s : State) (id : Nat) (d : Drainer) :
    ((s.closeTurn r id).lane d).Sublist (s.lane d) := by
  rcases closeTurn_cases r s id with hs | ⟨c, notices, -, -, -, hs⟩
  · exact lane_of_eq hs
  · rw [hs]
    exact lane_endClose { s with notices } id d

theorem lane_drop (s : State) (d : Drainer) : (s.drop.lane d).Sublist (s.lane d) := by
  rw [drop]
  split
  · exact List.Sublist.refl _
  · exact List.Sublist.refl _

/-- A reported span joins the lane at its end, or not at all. -/
theorem lane_report (r : Reporter) (s : State) (span : Span) (d : Drainer) :
    ((s.report r span).lane d).Sublist
      (s.lane d ++ [⟨s.journal.reported.length, r.encoder.encode span⟩]) := by
  -- a worker that is started holds nothing
  have hstarted : ((s.startWorker r).lane d).Sublist (s.lane d) := by
    rcases startWorker_cases r s with ⟨-, hs⟩ | ⟨-, -, hs⟩ | ⟨-, -, hs⟩
    · exact lane_of_eq hs
    · rw [hs]
      exact List.Sublist.refl _
    · rw [hs]
      exact lane_sublist rfl (List.nil_sublist _) (List.Sublist.refl _)
  obtain ⟨started, latch, worker, hstart⟩ := startWorker_frame r s
  rw [hstart] at hstarted
  rcases report_cases r s span with ⟨-, hr⟩ | ⟨-, intake, ho, hr⟩
  · rw [hr, lose_eq, hstart]
    exact hstarted.trans (List.sublist_append_left _ _)
  · obtain ⟨hslots, -⟩ := Intake.offer?_eq_some ho
    have hlane : (s.report r span).lane d =
        State.lane d { s with started, latch, worker }
          ++ [⟨s.journal.reported.length, r.encoder.encode span⟩] := by
      rw [hr, hstart, lane, lane, List.append_assoc, List.append_assoc, List.append_assoc]
      show Drainer.handed d _ ++ (_ ++ intake.queue.slots.map Slot.item) = _
      rw [hslots, List.map_append]
      cases d with
      | worker => rfl
      | flushes => rfl
    rw [hlane]
    exact hstarted.append (List.Sublist.refl _)

/-- An event takes parcels out of a lane; only the span that it reports may join it, at the end. -/
theorem lane_step (r : Reporter) (s : State) (e : Event) (d : Drainer) :
    ((s.step r e).lane d).Sublist (s.lane d ++ e.span?.toList.map fun span =>
      ⟨s.journal.reported.length, r.encoder.encode span⟩) := by
  have silent : ∀ {s' : State}, (s'.lane d).Sublist (s.lane d) →
      (s'.lane d).Sublist (s.lane d ++ []) := by
    intro s' h
    rw [List.append_nil]
    exact h
  cases e with
  | report span => exact lane_report r s span d
  | flush id => exact silent (lane_flush r s id d)
  | close id => exact silent (lane_close r s id d)
  | drop => exact silent (lane_drop s d)
  | workerTurn => exact silent (lane_workerTurn r s d)
  | closeTurn id => exact silent (lane_closeTurn r s id d)
  | sendEnds sender outcome =>
    cases sender with
    | worker => exact silent (lane_workerSendEnds r s outcome d)
    | call id => exact silent (lane_flushSendEnds r s id outcome d)
  | pass time => exact silent (List.Sublist.refl _)

/-- A lane stands in the order of reports. -/
theorem lane_run (r : Reporter) (events : List Event) (d : Drainer) :
    (((initial r).run r events).lane d).Sublist
      (r.parcels ((initial r).run r events).journal.reported) := by
  refine Reachable.induction (P := fun s => (s.lane d).Sublist (r.parcels s.journal.reported))
    ?_ ?_ ⟨events, rfl⟩
  · cases d with
    | worker => exact List.Sublist.refl _
    | flushes => exact List.Sublist.refl _
  · intro s e h
    have hparcels : r.parcels (s.step r e).journal.reported =
        r.parcels s.journal.reported ++ e.span?.toList.map fun span =>
          ⟨s.journal.reported.length, r.encoder.encode span⟩ := by
      rw [reported_step]
      cases e.span? with
      | none => simp
      | some span => exact r.parcels_concat _ span
    rw [hparcels]
    exact (lane_step r s e d).trans (h.append (List.Sublist.refl _))

/-! ## No span is sent twice -/

/-- The spans that were handed over, by whomever, that the worker holds and that are queued. -/
def course (s : State) : List Nat :=
  (Drainer.flushes.handed s.journal.handovers ++ s.lane .worker).map Parcel.serial

/-- No event doubles a span. -/
theorem course_step (r : Reporter) (s : State) (e : Event) (serial : Nat) :
    (s.step r e).course.count serial ≤
      s.course.count serial
        + (e.span?.toList.map fun _ => s.journal.reported.length).count serial := by
  have hlane : ∀ d : Drainer, (((s.step r e).lane d).map Parcel.serial).count serial ≤
      ((s.lane d).map Parcel.serial).count serial
        + (e.span?.toList.map fun _ => s.journal.reported.length).count serial := by
    intro d
    have hcount := ((lane_step r s e d).map Parcel.serial).count_le serial
    rw [List.map_append, List.count_append, List.map_map] at hcount
    exact hcount
  -- who hands nothing over has handed over what he had before
  have hidle : ∀ {h : Handover} {d : Drainer}, h.sender.drainer ≠ d →
      (s.step r e).journal.handovers = s.journal.handovers ++ [h] →
      d.handed (s.step r e).journal.handovers = d.handed s.journal.handovers := by
    intro h d hd hh
    rw [hh, Drainer.handed_concat, if_neg hd, List.append_nil]
  simp only [course, List.map_append, List.count_append]
  cases HandsOver.step r s e with
  | nothing handovers =>
    have hworker := hlane .worker
    rw [handovers]
    omega
  | ofWorker message _ handovers =>
    have hworker := hlane .worker
    rw [hidle (d := .flushes) (by simp [Sender.drainer]) handovers]
    omega
  | ofFlush f _ handovers worker =>
    -- the worker holds what it held, so the lanes share the queue alone
    have hflushes := hlane .flushes
    have hhanded := hidle (d := .worker) (by simp [Sender.drainer]) handovers
    simp only [lane, holds, List.map_append, List.count_append, List.map_nil, List.count_nil,
      hhanded, worker] at hflushes ⊢
    omega

/-- Every message is of the worker or of a flush. -/
theorem handed_perm (handovers : List Handover) :
    (Drainer.flushes.handed handovers ++ Drainer.worker.handed handovers).Perm
      (handovers.flatMap Handover.message) := by
  induction handovers with
  | nil => exact .nil
  | cons h rest ih =>
    rw [List.perm_iff_count] at ih ⊢
    intro p
    have hcount := ih p
    cases hs : h.sender.drainer <;>
      simp only [Drainer.handed, List.filter_cons, hs, List.flatMap_cons, List.count_append,
        decide_true, decide_false, if_true, if_false, reduceCtorEq, Bool.false_eq_true]
        at hcount ⊢ <;>
      omega

/-- No span is handed to the transport twice. -/
theorem Reachable.handed_once (h : s.Reachable r) :
    ((s.journal.handovers.flatMap Handover.message).map Parcel.serial).Nodup := by
  have hcourse : ∀ serial,
      s.course.count serial ≤ (List.range s.journal.reported.length).count serial := by
    refine h.induction (P := fun s => ∀ serial,
      s.course.count serial ≤ (List.range s.journal.reported.length).count serial) ?_ ?_
    · exact fun _ => Nat.zero_le _
    · intro s e ih serial
      have hstep := course_step r s e serial
      have hbefore := ih serial
      rw [reported_step, List.length_append]
      generalize e.span? = span? at hstep ⊢
      cases span? with
      | none => exact Nat.le_trans hstep hbefore
      | some span =>
        rw [Option.toList_some, List.length_singleton, List.range_succ, List.count_append]
        exact Nat.le_trans hstep (Nat.add_le_add_right hbefore _)
  rw [List.nodup_iff_count_le_one]
  intro serial
  have hrange : (List.range s.journal.reported.length).Nodup := List.nodup_range
  have honce := List.nodup_iff_count_le_one.1 hrange serial
  have hhanded := (handed_perm s.journal.handovers).map Parcel.serial |>.count_eq serial
  have hall := hcourse serial
  simp only [course, lane, List.map_append, List.count_append] at hall hhanded
  omega

/-! ## Reporters without a worker -/

/-- A worker that counts as started and has never come does not come. -/
theorem absent_step (hs : s.started = true) (hw : s.worker = .absent) (e : Event) :
    (s.step r e).worker = .absent := by
  rcases worker_step r s e with ⟨hhires, -⟩ | ⟨-, hsame | ⟨halive, -⟩⟩
  · -- a report would have to find no worker started
    cases e <;> simp [hires, hs] at hhires
  · exact hsame.trans hw
  · rw [hw] at halive
    cases halive

/-- A reporter that sends nothing in the background never has a worker. -/
theorem Reachable.worker_absent (hb : r.background = false) (h : s.Reachable r) :
    s.started = true ∧ s.worker = .absent := by
  refine h.induction (P := fun s => s.started = true ∧ s.worker = .absent) ⟨?_, rfl⟩ ?_
  · rw [initial, hb]
    rfl
  · rintro s e ⟨hs, hw⟩
    exact ⟨started_step hs r e, absent_step hs hw e⟩

/-- All that such a reporter sends, it sends in flushes. -/
theorem Reachable.handed_flushes (hb : r.background = false) (h : s.Reachable r) :
    Drainer.flushes.handed s.journal.handovers = s.journal.handovers.flatMap Handover.message := by
  have hboth : s.Reachable r
      ∧ ∀ h ∈ s.journal.handovers, h.sender.drainer = .flushes := by
    refine h.induction (P := fun s => s.Reachable r
      ∧ ∀ h ∈ s.journal.handovers, h.sender.drainer = .flushes) ⟨reachable_initial r, nofun⟩ ?_
    rintro s e ⟨hs, hall⟩
    refine ⟨hs.step e, ?_⟩
    cases HandsOver.step r s e with
    | nothing handovers =>
      rw [handovers]
      exact hall
    | ofWorker message sendable handovers pending flushes =>
      -- a message of the worker would be under way, and there is no worker
      rw [((hs.step e).worker_absent hb).2] at pending
      exact absurd pending.symm sendable.1
    | ofFlush f sendable handovers =>
      rw [handovers]
      intro h hmem
      rcases List.mem_append.1 hmem with hmem | hmem
      · exact hall h hmem
      · rw [List.mem_singleton] at hmem
        rw [hmem]
        rfl
  rw [Drainer.handed, List.filter_eq_self.2 fun h hmem => decide_eq_true (hboth.2 h hmem)]

/-- Whatever happens in whatever order, what the worker sends, in the order in which its sends
start, is in the order of reports; and so is what the flushes send, in the order in which their
sends start. Without background sending that is all there is. -/
theorem sends_in_report_order (r : Reporter) (events : List Event) :
    let s := (initial r).run r events
    s.journal.reported = events.filterMap Event.span?
      ∧ (Drainer.worker.handed s.journal.handovers).Sublist (r.parcels s.journal.reported)
      ∧ (Drainer.flushes.handed s.journal.handovers).Sublist (r.parcels s.journal.reported)
      ∧ (r.background = false →
        (s.journal.handovers.flatMap Handover.message).Sublist
          (r.parcels s.journal.reported)) := by
  intro s
  have hfront : ∀ d : Drainer, (d.handed s.journal.handovers).Sublist (s.lane d) := by
    intro d
    rw [lane, List.append_assoc]
    exact List.sublist_append_left _ _
  have hworker := (hfront .worker).trans (lane_run r events .worker)
  have hflushes := (hfront .flushes).trans (lane_run r events .flushes)
  refine ⟨reported_run r (initial r) events, hworker, hflushes, fun hb => ?_⟩
  have hall := Reachable.handed_flushes hb ⟨events, rfl⟩
  rw [← hall]
  exact hflushes

end State

/-- A reporter without a worker, whose messages have room for two spans. -/
def Reporter.unmanned : Reporter :=
  { Reporter.tiny with transport := .memory .proto3 2, messageMaxBytes := 2, messageTimeout := 0 }

/-- Three flushes that start their sends one after the other; the sends end the other way round. -/
def Event.overlaps : List Event :=
  let span : Span := default
  [.report span, .report span, .report span, .flush 1, .flush 2, .report span, .flush 3,
    .sendEnds (.call 3) .sent, .sendEnds (.call 2) .sent, .sendEnds (.call 1) .sent]

theorem State.overlaps_in_report_order :
    let s := (initial .unmanned).run .unmanned Event.overlaps
    s.journal.handovers.map (fun h => h.message.map Parcel.serial) = [[0, 1], [2], [3]]
      ∧ s.journal.delivered.map Parcel.serial = [3, 2, 0, 1]
      ∧ (s.journal.handovers.flatMap Handover.message).Sublist
        (Reporter.unmanned.parcels s.journal.reported) := by
  intro s
  have hb : Reporter.unmanned.background = false := by decide +kernel
  obtain ⟨-, -, -, hall⟩ := sends_in_report_order .unmanned Event.overlaps
  exact ⟨by decide +kernel, by decide +kernel, hall hb⟩

end SpanCourier
