import SpanCourier.Proofs.Reporter.Accounting
import SpanCourier.Proofs.Reporter.Counting
import SpanCourier.Proofs.Reporter.MessageLimit
import SpanCourier.Proofs.Reporter.Shutdown

set_option autoImplicit false

/-! # Spans that nobody counts

A span can get lost in two ways without being counted. A crash takes spans with it: a send its
message, which the worker that ends does not count, for it counts what is left in its batch; and a
batch the span that it crashes over, which the queue no longer has. And the drop of a reporter
closes it without clearing the queue, as a close would: what the worker does not take in its last
cycle stays there.

What the crashes of sends have taken is `State.vanished`. With it, and with what batches have
crashed over, the accounts of every run are balanced, whatever happens (`State.accountedBut_run`),
so these two are the only ways.
-/

namespace SpanCourier

/-- The parcels of the sends that crashed. -/
def Journal.crashed (journal : Journal) : List Parcel :=
  (journal.endings.filter fun e => e.outcome = .crashed).flatMap Ending.message

/-- What comes out of a turn that packed a batch is with the transport, if it is anything. -/
theorem Worker.pending_onward (batch : Batch Parcel) (message : List Parcel) (last : Bool) :
    (onward batch message last).pending = message := by
  rw [onward]
  split
  · next hm =>
    rw [hm]
    cases last with
    | true => rfl
    | false => rfl
  · rfl

namespace State

variable {r : Reporter} {s : State} {astray : List Parcel}

/-! ## The accounts of all runs -/

/-- The parcels that the crashes in a row of events make vanish. -/
def vanished (r : Reporter) (s : State) : List Event → List Parcel
  | [] => []
  | e :: rest => s.vanishes e ++ vanished r (s.step r e) rest

theorem vanished_append (r : Reporter) (s : State) (earlier later : List Event) :
    vanished r s (earlier ++ later) =
      vanished r s earlier ++ vanished r (s.run r earlier) later := by
  induction earlier generalizing s with
  | nil => rfl
  | cons e rest ih =>
    rw [List.cons_append, vanished, vanished, ih, List.append_assoc]
    rfl

theorem vanished_eq_nil {events : List Event} (calm : ∀ e ∈ events, e.calm = true) :
    vanished r s events = [] := by
  induction events generalizing s with
  | nil => rfl
  | cons e rest ih =>
    rw [List.forall_mem_cons] at calm
    rw [vanished, vanishes_eq_nil calm.1, List.nil_append]
    exact ih calm.2

/-- In every run the accounts are balanced but for what has vanished. -/
theorem accountedBut_run (r : Reporter) (events : List Event) :
    ((initial r).run r events).AccountedBut r (vanished r (initial r) events) := by
  refine run_induction (P := fun events s => s.AccountedBut r (vanished r (initial r) events))
    (accountedBut_nil.2 (accounted_initial r)) ?_ events
  intro events e ih
  have hlatched := Reachable.latched (r := r) ⟨events, rfl⟩
  have hstep := accountedBut_step ih hlatched e
  have hvanished : vanished r (initial r) (events ++ [e]) =
      vanished r (initial r) events ++ ((initial r).run r events).vanishes e := by
    rw [vanished_append, vanished, vanished, List.append_nil]
  rw [hvanished]
  exact hstep.move rfl ((List.perm_append_comm.append_left _).append_left _) rfl rfl rfl

namespace AccountedBut

/-- Every reported span is in just one place: it is not settled yet, delivered, gone astray or
spilled, or lost. -/
theorem once_placed (h : s.AccountedBut r astray) :
    ((s.unsettled ++ s.journal.delivered ++ (astray ++ s.journal.spilled)).map Parcel.serial
      ++ s.journal.lost).Perm (List.range s.journal.reported.length) := by
  refine List.Perm.trans (List.Perm.append_right _ (List.Perm.map _ ?_)) h.once
  have hplaces := List.perm_iff_count.1 s.perm_places
  rw [List.perm_iff_count]
  intro p
  have hcount := hplaces p
  simp only [Journal.departed, List.count_append] at hcount ⊢
  omega

theorem reported_length (h : s.AccountedBut r astray) :
    s.journal.reported.length = s.journal.delivered.length + s.journal.lost.length
      + (s.unsettled.length + (astray ++ s.journal.spilled).length) := by
  have hlength := h.once_placed.length_eq
  simp only [List.length_append, List.length_map, List.length_range] at hlength ⊢
  omega

theorem metrics_spans (h : s.AccountedBut r astray) :
    s.metrics.spans = UInt64.ofNat s.journal.delivered.length + s.metrics.spansDropped
      + UInt64.ofNat (s.unsettled.length + (astray ++ s.journal.spilled).length) := by
  calc s.metrics.spans
      = UInt64.ofNat s.journal.reported.length := h.spans_eq
    _ = UInt64.ofNat s.journal.delivered.length + UInt64.ofNat s.journal.lost.length
          + UInt64.ofNat (s.unsettled.length + (astray ++ s.journal.spilled).length) := by
        rw [h.reported_length, UInt64.ofNat_add, UInt64.ofNat_add]
    _ = _ := by
        rw [show s.metrics.spansDropped = _ from h.dropped_eq]
        rfl

/-- A span that is not settled is neither delivered nor lost. -/
theorem not_mem_of_unsettled (h : s.AccountedBut r astray) {p : Parcel} (hp : p ∈ s.unsettled) :
    p ∉ s.journal.delivered ∧ p.serial ∉ s.journal.lost := by
  -- no serial occurs twice in the accounts, and this one occurs among what is not settled
  have hcount : (((s.unsettled ++ s.journal.delivered
      ++ (astray ++ s.journal.spilled)).map Parcel.serial ++ s.journal.lost).count p.serial) ≤ 1 :=
    List.nodup_iff_count_le_one.1 (h.once_placed.nodup_iff.2 List.nodup_range) _
  simp only [List.map_append, List.count_append] at hcount
  have hhere : 0 < (s.unsettled.map Parcel.serial).count p.serial :=
    List.count_pos_iff.2 (List.mem_map_of_mem hp)
  constructor
  · intro hmem
    have hthere : 0 < (s.journal.delivered.map Parcel.serial).count p.serial :=
      List.count_pos_iff.2 (List.mem_map_of_mem hmem)
    omega
  · intro hmem
    have hthere : 0 < s.journal.lost.count p.serial := List.count_pos_iff.2 hmem
    omega

end AccountedBut

/-! ## Crashes -/

theorem endings_step (h : s.Reachable r) (e : Event) :
    (s.step r e).journal.endings = s.journal.endings ++ (s.ended? e).toList :=
  congrArg Traffic.endings (traffic_step h e)

/-- A worker that sends has a message. -/
theorem Reachable.message_ne_nil (h : s.Reachable r) : ∀ batch message last,
    s.worker = .sending batch message last → message ≠ [] := by
  refine h.dock_induction (P := fun d => ∀ batch message last,
    d.worker = .sending batch message last → message ≠ []) (fun _ _ _ hw => by cases hw) ?_ ?_
  · intro d d' hd hp
    cases hd with
    | hire => exact fun _ _ _ hw => by cases hw
    | sent batch message sending => exact fun _ _ _ hw => by cases hw
    | leave => exact fun _ _ _ hw => by cases hw
    | _ => exact hp
  · -- a turn sends what it has packed, or sends nothing
    intro s hs hp batch message last hw
    rcases dock_workerTurn r s with hsame | ⟨fresh, own, -, -, -, -, hturn⟩ |
      ⟨start, taken, left, s₁, batch₁, last₁, s₂, batch₂, message₂, -, -, hturn⟩ |
      ⟨own, slot, left, signal, -, -, hturn⟩
    · rw [hsame] at hw
      exact hp batch message last hw
    · rw [hturn] at hw
      cases hw
    · rw [hturn] at hw
      have hpending := congrArg Worker.pending hw
      rw [show Worker.pending _ = message₂ from Worker.pending_onward batch₂ message₂ last₁]
        at hpending
      obtain ⟨-, hne⟩ := Worker.eq_of_onward_sending hw
      rw [← show message₂ = message from hpending]
      exact hne
    · rw [hturn] at hw
      cases hw

/-- What a sender has with the transport is not empty. -/
theorem Reachable.outgoing_ne_nil (h : s.Reachable r) {sender : Sender} {message : List Parcel}
    (hm : s.outgoing? sender = some message) : message ≠ [] := by
  cases sender with
  | worker =>
    rw [outgoing?] at hm
    split at hm
    · next batch message' last hw =>
      cases hm
      exact h.message_ne_nil _ _ _ hw
    · cases hm
  | call id =>
    -- a flush that is under way has handed its message over
    obtain ⟨f, hf, rfl⟩ := Option.map_eq_some_iff.1 hm
    obtain ⟨handover, hmem, -, hsame⟩ := h.handed.flushes f (List.mem_of_find?_eq_some hf)
    rw [← hsame]
    exact (h.handed.sendable handover hmem).1

/-- Every send that has ended was ended by an event of the run. -/
theorem exists_of_mem_endings {events : List Event} {ending : Ending}
    (h : ending ∈ ((initial r).run r events).journal.endings) :
    ∃ earlier e later, events = earlier ++ e :: later
      ∧ ((initial r).run r earlier).ended? e = some ending := by
  refine run_induction (P := fun events s => ending ∈ s.journal.endings →
    ∃ earlier e later, events = earlier ++ e :: later
      ∧ ((initial r).run r earlier).ended? e = some ending) (fun hmem => by cases hmem) ?_ events h
  intro events e ih hmem
  rw [endings_step ⟨events, rfl⟩] at hmem
  rcases List.mem_append.1 hmem with hold | hnew
  · obtain ⟨earlier, e', later, rfl, hended⟩ := ih hold
    exact ⟨earlier, e', later ++ [e], by simp, hended⟩
  · exact ⟨events, e, [], rfl, Option.mem_toList.1 hnew⟩

/-- The message of a send that crashes vanishes. -/
theorem mem_vanishes {e : Event} {ending : Ending} (h : s.ended? e = some ending)
    (hc : ending.outcome = .crashed) {p : Parcel} (hp : p ∈ ending.message) : p ∈ s.vanishes e := by
  cases e with
  | sendEnds sender outcome =>
    obtain ⟨message, hm, rfl⟩ := Option.map_eq_some_iff.1 h
    obtain rfl : outcome = .crashed := hc
    cases sender with
    | worker =>
      rw [outgoing?] at hm
      split at hm
      · next batch message' last hw =>
        cases hm
        rw [vanishes, hw]
        exact hp
      · cases hm
    | call id =>
      -- a flush also takes what its batch still holds with it
      obtain ⟨f, hf, rfl⟩ := Option.map_eq_some_iff.1 hm
      rw [vanishes, flushParcels, hf]
      exact List.mem_append_right _ hp
  | _ => cases h

/-- A crash takes at least one span with it. -/
theorem vanished_ne_nil {events : List Event} {ending : Ending}
    (h : ending ∈ ((initial r).run r events).journal.endings) (hc : ending.outcome = .crashed) :
    vanished r (initial r) events ≠ [] := by
  obtain ⟨earlier, e, later, rfl, hended⟩ := exists_of_mem_endings h
  have hs : ((initial r).run r earlier).Reachable r := ⟨earlier, rfl⟩
  have hne : ending.message ≠ [] := by
    cases e with
    | sendEnds sender outcome =>
      obtain ⟨message, hm, rfl⟩ := Option.map_eq_some_iff.1 hended
      exact hs.outgoing_ne_nil hm
    | _ => cases hended
  obtain ⟨p, hp⟩ := List.exists_mem_of_ne_nil _ hne
  rw [vanished_append, vanished]
  refine List.ne_nil_of_mem (a := p) (List.mem_append_right _ (List.mem_append_left _ ?_))
  exact mem_vanishes hended hc hp

/-- Unless a flush crashes, just the messages whose sends crash vanish. -/
theorem vanishes_eq_crashed {e : Event} (he : ∀ id, e ≠ .sendEnds (.call id) .crashed) :
    s.vanishes e = ((s.ended? e).toList.filter fun ending =>
      ending.outcome = .crashed).flatMap Ending.message := by
  cases e with
  | sendEnds sender outcome =>
    by_cases ho : outcome = .crashed
    · subst ho
      cases sender with
      | worker =>
        rw [vanishes, ended?, outgoing?]
        cases s.worker <;> simp [Worker.pending]
      | call id => exact absurd rfl (he id)
    · -- nothing vanishes here, and the send that ended is none of those that crashed
      have hcalm : Event.calm (.sendEnds sender outcome) = true := by
        cases outcome with
        | sent => rfl
        | crashed => exact absurd rfl ho
        | failed error => rfl
      rw [vanishes_eq_nil hcalm, ended?]
      cases s.outgoing? sender <;> simp [ho]
  | _ => rfl

theorem vanished_eq_crashed {events : List Event}
    (he : ∀ id, .sendEnds (.call id) .crashed ∉ events) :
    vanished r (initial r) events = ((initial r).run r events).journal.crashed := by
  refine run_induction (P := fun events s => (∀ id, .sendEnds (.call id) .crashed ∉ events) →
    vanished r (initial r) events = s.journal.crashed) (fun _ => rfl) ?_ events he
  intro events e ih hall
  have hevents : ∀ id, .sendEnds (.call id) .crashed ∉ events :=
    fun id hmem => hall id (List.mem_append_left _ hmem)
  have hlast : ∀ id, e ≠ .sendEnds (.call id) .crashed := by
    rintro id rfl
    exact hall id (List.mem_append_right _ (List.mem_singleton_self _))
  rw [vanished_append, vanished, vanished, List.append_nil, ih hevents, vanishes_eq_crashed hlast,
    Journal.crashed, Journal.crashed, endings_step ⟨events, rfl⟩, List.filter_append,
    List.flatMap_append]

/-- Once the call that closed the reporter has returned, nothing is queued. -/
theorem queued_of_returned {earlier later : List Event} {id : Nat} {time : Instant}
    (hopen : ((initial r).run r earlier).closed = false) (honce : .close id ∉ later)
    (hreturned : ⟨id, time, .closed⟩ ∈
      ((initial r).run r (earlier ++ .close id :: later)).returns) :
    ((initial r).run r (earlier ++ .close id :: later)).queued = [] := by
  rw [run_append] at hreturned ⊢
  have hs : ((initial r).run r earlier).Reachable r := ⟨earlier, rfl⟩
  obtain ⟨hclosed, -⟩ :=
    (ClosedBy.close hs hopen id).run r later fun hmem => absurd hmem honce
  exact List.map_eq_nil_iff.2 (hclosed.empty (hclosed.closings_of_returned hreturned))

/-- A crash is the one thing that a close does not make up for. In any run, every reported span is
in one place, counted as dropped, or gone with a crash. Once the close has returned, the worker is
gone and no flush is under way, the spans are those that were delivered, those that were counted as
dropped, and besides these the spans that crashes took with them; unless a flush crashed these are
the spans of the messages whose sends crashed, and those that a batch crashed over. They are at
least one if any send crashed. -/
theorem close_misses_crashed (r : Reporter) {earlier later : List Event} {id : Nat}
    (hopen : ((initial r).run r earlier).closed = false) (honce : .close id ∉ later) :
    let events := earlier ++ .close id :: later
    let s := (initial r).run r events
    let gone := vanished r (initial r) events ++ s.journal.spilled
    ((s.unsettled ++ s.journal.delivered ++ gone).map Parcel.serial ++ s.journal.lost).Perm
        (List.range s.journal.reported.length)
      ∧ s.metrics.spans = UInt64.ofNat s.journal.reported.length
      ∧ s.metrics.spansDropped = UInt64.ofNat s.journal.lost.length
      ∧ ((∀ call, .sendEnds (.call call) .crashed ∉ events) →
        gone = s.journal.crashed ++ s.journal.spilled)
      ∧ ∀ time, ⟨id, time, .closed⟩ ∈ s.returns → s.worker.alive = false → s.flushes = [] →
        s.journal.reported.length =
            s.journal.delivered.length + s.journal.lost.length + gone.length
          ∧ s.metrics.spans = UInt64.ofNat s.journal.delivered.length + s.metrics.spansDropped
              + UInt64.ofNat gone.length
          ∧ ∀ ending ∈ s.journal.endings, ending.outcome = .crashed →
            s.journal.delivered.length + s.journal.lost.length < s.journal.reported.length := by
  intro events s gone
  have haccounted : s.AccountedBut r (vanished r (initial r) events) := accountedBut_run r events
  refine ⟨haccounted.once_placed, haccounted.spans_eq, haccounted.dropped_eq,
    fun hnone => congrArg (· ++ s.journal.spilled) (vanished_eq_crashed hnone), ?_⟩
  intro time hreturned halive hflushes
  have hnone : s.unsettled.length = 0 := by
    rw [unsettled_eq_queued halive hflushes, queued_of_returned hopen honce hreturned,
      List.length_nil]
  have hlength := haccounted.reported_length
  have hspans := haccounted.metrics_spans
  rw [hnone, Nat.zero_add] at hlength hspans
  refine ⟨hlength, hspans, fun ending hmem hc => ?_⟩
  have hgone : 0 < gone.length := by
    rw [List.length_append]
    exact Nat.add_pos_left (List.length_pos_iff.2 (vanished_ne_nil hmem hc)) _
  have hall : s.journal.reported.length =
      s.journal.delivered.length + s.journal.lost.length + gone.length := hlength
  omega

end State

/-- Three spans are reported. -/
def Event.threeSpans : List Event :=
  List.replicate 3 (.report { (default : Span) with name := some "a" })

/-- The worker takes spans into a message, its send crashes, and the close looks again. -/
def Event.crashingEnd : List Event := [.workerTurn, .sendEnds .worker .crashed, .closeTurn 9]

namespace State

/-- The two spans of the message are missing when the close has returned. -/
theorem crashing_end_misses :
    let s := (initial .pairs).run .pairs (Event.threeSpans ++ .close 9 :: Event.crashingEnd)
    s.journal.crashed.map Parcel.serial = [0, 1]
      ∧ s.metrics.spans = UInt64.ofNat s.journal.delivered.length + s.metrics.spansDropped
          + UInt64.ofNat s.journal.crashed.length := by
  intro s
  have hopen : ((initial .pairs).run .pairs Event.threeSpans).closed = false := by decide +kernel
  have honce : Event.close 9 ∉ Event.crashingEnd := by decide +kernel
  have hnoflush : ∀ call, Event.sendEnds (.call call) .crashed ∉
      Event.threeSpans ++ .close 9 :: Event.crashingEnd := by
    intro call
    simp [Event.threeSpans, Event.crashingEnd]
  have hreturned : ⟨9, 0, .closed⟩ ∈ s.returns := by decide +kernel
  have halive : s.worker.alive = false := by decide +kernel
  have hflushes : s.flushes = [] := by decide +kernel
  obtain ⟨-, -, -, hcrashed, hend⟩ := close_misses_crashed .pairs hopen honce
  obtain ⟨-, hspans, -⟩ := hend 0 hreturned halive hflushes
  have hspilled : s.journal.spilled = [] := by decide +kernel
  rw [hcrashed hnoflush, hspilled, List.append_nil] at hspans
  exact ⟨by decide +kernel, hspans⟩

/-- They are neither delivered nor counted: of three spans one is dropped. -/
theorem crashing_end_unaccounted :
    let s := (initial .pairs).run .pairs (Event.threeSpans ++ .close 9 :: Event.crashingEnd)
    (⟨9, 0, .closed⟩ ∈ s.returns ∧ s.worker = .gone ∧ s.flushes = [])
      ∧ s.metrics.spans = 3 ∧ s.journal.delivered = [] ∧ s.journal.lost = [2]
      ∧ s.metrics.spansDropped = 1
      ∧ s.metrics.spans ≠
          UInt64.ofNat s.journal.delivered.length + s.metrics.spansDropped := by
  intro s
  refine ⟨?_, ?_, ?_, ?_, ?_, ?_⟩
  all_goals decide +kernel

variable {r : Reporter} {s : State}

/-! ## The drop of the reporter -/

namespace Retired

/-- A worker of a closed reporter that is not alive stays as it is. -/
theorem worker_step (h : s.Retired r) (ha : s.worker.alive = false) (e : Event) :
    (s.step r e).worker = s.worker := by
  rcases State.worker_step r s e with ⟨hhires, -⟩ | ⟨-, hsame | ⟨halive, -⟩⟩
  · -- a report starts a worker only as long as the reporter holds the latch
    cases e with
    | report span =>
      have hlatch := (Bool.and_eq_true_iff.1 hhires).2
      exact absurd (of_decide_eq_true hlatch) h.released
    | _ => cases hhires
  · exact hsame
  · rw [ha] at halive
    cases halive

/-- Without a worker and without a close that waits, nothing leaves the queue of a closed reporter
or joins it. -/
theorem queued_step (h : s.Retired r) (ha : s.worker.alive = false) (hg : s.closings = [])
    (e : Event) : (s.step r e).queued = s.queued := by
  cases e with
  | report span =>
    obtain ⟨started, hs⟩ := startWorker_of_released (r := r) h.released
    rw [State.step, report_of_closed h.isClosed, hs, lose_eq]
    rfl
  | flush id =>
    rw [State.step, flush_of_closed h.isClosed]
    rfl
  | close id =>
    rw [State.step, close_of_closed h.isClosed]
    rfl
  | drop =>
    rw [State.step, drop_of_closed h.isClosed]
    rfl
  | workerTurn =>
    have hnone : s.worker.batch? = none := by
      cases hw : s.worker <;> rw [hw] at ha <;> first | rfl | cases ha
    rw [State.step, workerTurn_of_batch?_eq_none hnone]
  | closeTurn id =>
    rcases closeTurn_cases r s id with hs | ⟨c, notices, hmem, -, -, -⟩
    · rw [State.step, hs]
    · rw [hg] at hmem
      cases hmem
  | sendEnds sender outcome =>
    cases sender with
    | worker =>
      obtain ⟨_, _, _, _, _, _, _, hs⟩ := workerSendEnds_frame r s outcome
      rw [State.step, hs]
      rfl
    | call id =>
      obtain ⟨_, _, _, _, _, _, _, hs⟩ := flushSendEnds_frame r s id outcome
      rw [State.step, hs]
      rfl
  | pass time => rfl

theorem queued_run (h : s.Retired r) (ha : s.worker.alive = false) (hg : s.closings = [])
    (more : List Event) : (s.run r more).queued = s.queued := by
  induction more generalizing s with
  | nil => rfl
  | cons e rest ih =>
    have hworker := h.worker_step ha e
    have hclosings : (s.step r e).closings = s.closings :=
      closings_step h.isClosed r fun _ _ c hmem => by simp [hg] at hmem
    calc (s.run r (e :: rest)).queued
        = (s.step r e).queued := ih (h.step e).1 (by rw [hworker, ha]) (by rw [hclosings, hg])
      _ = s.queued := h.queued_step ha hg e

end Retired

theorem closings_drop (s : State) : s.drop.closings = s.closings := by
  rw [drop]
  split
  · rfl
  · rfl

/-- The drop of the reporter leaves in the queue what nobody takes. Without crashes, of sends or of
the batch of the worker, once the reporter is dropped, the worker is gone and no flush is under way,
the spans are those that were delivered, those that were counted as dropped, and those that are
still queued. So the counters account for all spans only if nothing is queued. What is queued then
stays there, and is neither delivered nor counted later. -/
theorem drop_strands_queue (r : Reporter) {earlier later : List Event}
    (hopen : ((initial r).run r earlier).closed = false)
    (calm : ∀ e ∈ earlier ++ .drop :: later, e.calm = true) :
    let s := (initial r).run r (earlier ++ .drop :: later)
    s.journal.spilled = [] → s.worker.alive = false → s.flushes = [] →
      ((s.queued ++ s.journal.delivered).map Parcel.serial ++ s.journal.lost).Perm
          (List.range s.journal.reported.length)
        ∧ s.journal.reported.length =
            s.journal.delivered.length + s.journal.lost.length + s.queued.length
        ∧ s.metrics.spans = UInt64.ofNat s.journal.delivered.length + s.metrics.spansDropped
            + UInt64.ofNat s.queued.length
        ∧ (s.journal.reported.length = s.journal.delivered.length + s.journal.lost.length
            ↔ s.queued = [])
        ∧ ∀ more : List Event, (s.run r more).queued = s.queued
            ∧ ∀ p ∈ s.queued, p ∉ (s.run r more).journal.delivered
              ∧ p.serial ∉ (s.run r more).journal.lost := by
  intro s hspilled halive hflushes
  have hunsettled : s.unsettled = s.queued := unsettled_eq_queued halive hflushes
  have haccounted : s.AccountedBut r [] := by
    rw [← vanished_eq_nil (r := r) (s := initial r) calm]
    exact accountedBut_run r _
  have hplaced := haccounted.once_placed
  have hlength := haccounted.reported_length
  have hspans := haccounted.metrics_spans
  rw [hunsettled, hspilled, List.append_nil, List.append_nil] at hplaced
  rw [hunsettled, hspilled, List.append_nil, List.length_nil, Nat.add_zero] at hlength hspans
  refine ⟨hplaced, hlength, hspans, ?_, fun more => ?_⟩
  · rw [← List.length_eq_zero_iff]
    omega
  · have hs : ((initial r).run r earlier).Reachable r := ⟨earlier, rfl⟩
    have hrun : s = (((initial r).run r earlier).step r .drop).run r later :=
      run_append r (initial r) earlier (.drop :: later)
    obtain ⟨hdropped, -, -⟩ := retired_of_closes (e := .drop) hs hopen rfl
    have hretired : s.Retired r := by
      rw [hrun]
      exact (hdropped.run later).1
    have hclosings : s.closings = [] := by
      rw [hrun]
      refine closings_run_of_nil hdropped.isClosed ?_ later
      exact (closings_drop _).trans (hs.no_close_of_open hopen).1
    have hqueued := hretired.queued_run halive hclosings more
    refine ⟨hqueued, fun p hp => ?_⟩
    -- later events may drop further reports, but the accounts show that none of these is lost
    have hlater : (s.run r more).AccountedBut r
        (vanished r (initial r) (earlier ++ .drop :: later ++ more)) := by
      have hall := accountedBut_run r (earlier ++ .drop :: later ++ more)
      rw [run_append] at hall
      exact hall
    rw [← hqueued] at hp
    exact hlater.not_mem_of_unsettled (List.mem_append_left _ (List.mem_append_left _ hp))

end State

/-- The worker takes spans into a message, and its send succeeds. -/
def Event.quietEnd : List Event := [.workerTurn, .sendEnds .worker .sent]

namespace State

/-- One span is left in the queue for good. -/
theorem quiet_end_strands :
    let s := (initial .pairs).run .pairs (Event.threeSpans ++ .drop :: Event.quietEnd)
    s.queued.map Parcel.serial = [2]
      ∧ s.metrics.spans = UInt64.ofNat s.journal.delivered.length + s.metrics.spansDropped
          + UInt64.ofNat s.queued.length
      ∧ ∀ more : List Event, (s.run .pairs more).queued = s.queued := by
  intro s
  have hopen : ((initial .pairs).run .pairs Event.threeSpans).closed = false := by decide +kernel
  have calm : ∀ e ∈ Event.threeSpans ++ .drop :: Event.quietEnd, e.calm = true := by
    decide +kernel
  have halive : s.worker.alive = false := by decide +kernel
  have hflushes : s.flushes = [] := by decide +kernel
  have hspilled : s.journal.spilled = [] := by decide +kernel
  obtain ⟨-, -, hspans, -, hmore⟩ := drop_strands_queue .pairs hopen calm hspilled halive hflushes
  exact ⟨by decide +kernel, hspans, fun more => (hmore more).1⟩

/-- It is neither delivered nor counted: of three spans two are delivered and none is dropped. -/
theorem quiet_end_unaccounted :
    let s := (initial .pairs).run .pairs (Event.threeSpans ++ .drop :: Event.quietEnd)
    (s.worker = .gone ∧ s.flushes = [])
      ∧ s.metrics.spans = 3 ∧ s.journal.delivered.length = 2 ∧ s.journal.lost = []
      ∧ s.metrics.spansDropped = 0
      ∧ s.metrics.spans ≠
          UInt64.ofNat s.journal.delivered.length + s.metrics.spansDropped := by
  intro s
  refine ⟨?_, ?_, ?_, ?_, ?_, ?_⟩
  all_goals decide +kernel

end State

end SpanCourier
