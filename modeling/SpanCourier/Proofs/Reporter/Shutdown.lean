import SpanCourier.Proofs.Reporter.Finality

set_option autoImplicit false

/-! # The latch at shutdown

A close waits at the latch for the worker. The latch passes from the reporter to the worker when a
report starts the worker, and opens when either lets go of it: the reporter as it is closed, the
worker as it ends, in whatever way. So in every reachable state the place of the worker says who has
the latch (`State.Keyed`), and a close never waits for a worker that is not there.

While the close waits it has turns to look at the latch. It comes to its end (`State.Concludes`) at
the first one at which the worker has ended or its time is up (`State.closings_run`).
-/

namespace SpanCourier

/-! ## Who has the latch -/

/-- The reporter has the latch exactly as long as a worker may come: it has background sending, has
not been closed and has not started one. -/
structure State.Keyed (r : Reporter) (s : State) : Prop where
  reporter_iff : s.latch = some .reporter ↔
    s.worker = .absent ∧ s.closed = false ∧ r.background = true
  unstarted : s.latch = some .reporter → s.started = false

namespace State

variable {r : Reporter} {s s' : State}

namespace Keyed

theorem initial (r : Reporter) : (State.initial r).Keyed r := by
  constructor
  · cases hb : r.background <;> simp [State.initial, hb]
  · cases hb : r.background <;> simp [State.initial, hb]

/-- Once a worker has come, the reporter does not have the latch. -/
theorem of_present (hl : s'.Latched) (hw : s'.worker ≠ .absent) : s'.Keyed r :=
  ⟨⟨fun h => absurd (hl.absent h) hw, fun h => absurd h.1 hw⟩, fun h => absurd (hl.absent h) hw⟩

/-- A closed reporter does not have it either. -/
theorem of_closed (hl : s'.latch ≠ some .reporter) (hc : s'.closed = true) : s'.Keyed r :=
  ⟨⟨fun h => absurd h hl, fun h => by rw [hc] at h; cases h.2.1⟩, fun h => absurd h hl⟩

theorem of_eq (h : s.Keyed r) (hw : s'.worker = s.worker) (hl : s'.latch = s.latch)
    (hc : s'.closed = s.closed) (hs : s'.started = s.started) : s'.Keyed r := by
  constructor
  · rw [hw, hl, hc]
    exact h.reporter_iff
  · rw [hl, hs]
    exact h.unstarted

theorem report (h : s.Keyed r) {span : Span} (hh : s.hires (.report span) = false) :
    (s.report r span).Keyed r := by
  have hstart : (s.startWorker r).Keyed r := by
    rcases startWorker_cases r s with ⟨-, hs⟩ | ⟨-, hl, hs⟩ | ⟨hs, hl, -⟩
    · rw [hs]
      exact h
    · rw [hs]
      exact ⟨h.reporter_iff, fun hlatch => absurd hlatch hl⟩
    · simp [hires, hs, hl] at hh
  rcases report_cases r s span with ⟨-, hr⟩ | ⟨-, intake, -, hr⟩
  · rw [hr, lose_eq]
    exact hstart.of_eq rfl rfl rfl rfl
  · rw [hr]
    exact hstart.of_eq rfl rfl rfl rfl

theorem close (h : s.Keyed r) (id : Nat) : (s.close r id).Keyed r := by
  rcases close_cases r s id with ⟨-, hs⟩ | ⟨-, notices, hs⟩ | ⟨-, hs⟩
  · rw [hs]
    exact h.of_eq rfl rfl rfl rfl
  · rw [hs, endClose_eq]
    exact of_closed (latch_releaseLatch s) rfl
  · rw [hs]
    exact of_closed (latch_releaseLatch s) rfl

theorem drop (s : State) : s.drop.Keyed r := by
  rw [State.drop]
  split
  · next hc => exact of_closed (latch_releaseLatch s) hc
  · exact of_closed (latch_releaseLatch s) rfl

theorem closeTurn (h : s.Keyed r) (id : Nat) : (s.closeTurn r id).Keyed r := by
  rcases closeTurn_cases r s id with hs | ⟨c, notices, -, -, -, hs⟩
  · rw [hs]
    exact h
  · rw [hs, endClose_eq]
    exact h.of_eq rfl rfl rfl rfl

/-- Every event keeps the latch with whom it belongs to. Where a worker has come there is nothing to
look at, so the cases are about events before that. -/
theorem step (h : s.Keyed r) (hl : s.Latched) (e : Event) : (s.step r e).Keyed r := by
  by_cases hw : (s.step r e).worker = .absent
  · rcases worker_step r s e with ⟨-, hstarts⟩ | ⟨hh, hsame | ⟨-, hstays⟩⟩
    · rw [hw] at hstarts
      cases hstarts
    · have habsent : s.worker = .absent := hsame.symm.trans hw
      cases e with
      | report span => exact h.report hh
      | flush id =>
        obtain ⟨_, _, _, _, _, _, hs⟩ := flush_frame r s id
        rw [State.step, hs]
        exact h.of_eq rfl rfl rfl rfl
      | close id => exact h.close id
      | drop => exact drop s
      | workerTurn =>
        have hturn : s.workerTurn r = s := by rw [State.workerTurn, fill, habsent]
        rw [State.step, hturn]
        exact h
      | closeTurn id => exact h.closeTurn id
      | sendEnds sender outcome =>
        cases sender with
        | worker =>
          have hends : s.workerSendEnds r outcome = s := by rw [State.workerSendEnds, habsent]
          rw [State.step, hends]
          exact h
        | call id =>
          obtain ⟨_, _, _, _, _, _, _, hs⟩ := flushSendEnds_frame r s id outcome
          rw [State.step, hs]
          exact h.of_eq rfl rfl rfl rfl
      | pass time => exact h.of_eq rfl rfl rfl rfl
    · exact absurd hw hstays
  · exact of_present (hl.step r e) hw

end Keyed

theorem Reachable.keyed (h : s.Reachable r) : s.Keyed r := by
  have hboth : s.Latched ∧ s.Keyed r := by
    refine h.induction (P := fun s => s.Latched ∧ s.Keyed r) ⟨.initial r, .initial r⟩ ?_
    rintro s e ⟨hl, hk⟩
    exact ⟨hl.step r e, hk.step hl e⟩
  exact hboth.2

/-- The latch is open when nobody can let go of it any more: the worker has ended, or it has not
come and will not come. -/
theorem Reachable.latch_eq_none_iff (h : s.Reachable r) :
    s.latch = none ↔
      s.worker.alive = false
        ∧ (s.worker = .absent → s.closed = true ∨ r.background = false) := by
  have hworker := h.latched.alive_iff
  have hreporter := h.keyed.reporter_iff
  rcases hl : s.latch with _ | holder
  · -- neither of the two has the latch
    rw [hl] at hworker hreporter
    simp only [reduceCtorEq, iff_false, Bool.not_eq_true, false_iff] at hworker hreporter
    refine ⟨fun _ => ⟨hworker, fun hw => ?_⟩, fun _ => rfl⟩
    by_cases hc : s.closed = true
    · exact .inl hc
    · exact .inr (by simpa [hw, hc] using hreporter)
  · cases holder with
    | worker => simp [hworker.2 hl]
    | reporter =>
      obtain ⟨hw, hc, hb⟩ := hreporter.1 hl
      simp [hw, hc, hb]

/-! ## How many workers there are -/

/-- The worker is started by the first report to a reporter that sends in the background and has not
been closed. -/
theorem Reachable.hires_iff (h : s.Reachable r) (e : Event) :
    s.hires e = true ↔
      (∃ span, e = .report span)
        ∧ s.worker = .absent ∧ s.closed = false ∧ r.background = true := by
  rw [← h.keyed.reporter_iff]
  constructor
  · intro hh
    cases e <;> simp_all [hires]
  · rintro ⟨⟨span, rfl⟩, hl⟩
    simp [hires, hl, h.keyed.unstarted hl]

/-- At most one worker is started from here, and none if one has been, if there is to be none or if
the reporter is closed. -/
theorem Reachable.hired_le (h : s.Reachable r) (events : List Event) :
    s.hired r events ≤
      if s.worker = .absent ∧ s.closed = false ∧ r.background = true then 1 else 0 := by
  induction events generalizing s with
  | nil => exact Nat.zero_le _
  | cons e rest ih =>
    have hrest := ih (h.step e)
    rcases worker_step r s e with ⟨hh, hstarts⟩ | ⟨hh, hstays⟩
    · have hfree := ((h.hires_iff e).1 hh).2
      rw [if_neg (by rw [hstarts]; simp)] at hrest
      simp only [hired, hh, if_pos hfree, if_true]
      omega
    · -- who may still start one after the event, may do so before it
      have hfree :
          (s.step r e).worker = .absent ∧ (s.step r e).closed = false ∧ r.background = true →
          s.worker = .absent ∧ s.closed = false ∧ r.background = true := by
        rintro ⟨hw, hc, hb⟩
        rw [closed_step, Bool.or_eq_false_iff] at hc
        rcases hstays with hsame | ⟨-, hpresent⟩
        · exact ⟨hsame.symm.trans hw, hc.1, hb⟩
        · exact absurd hw hpresent
      simp only [hired, hh, Bool.false_eq_true, if_false, Nat.zero_add]
      refine Nat.le_trans hrest ?_
      split
      · next hlater => exact Nat.le_of_eq (if_pos (hfree hlater)).symm
      · exact Nat.zero_le _

/-! ## The end of a close -/

/-- The worker is alive and a close may still wait for it. -/
def Detains (s : State) (deadline : Instant) : Prop := s.worker.alive = true ∧ s.now < deadline

instance (s : State) (deadline : Instant) : Decidable (s.Detains deadline) :=
  inferInstanceAs (Decidable (_ ∧ _))

/-- A close comes to its end: it returns, with a notice if the worker is still alive. What was
queued is lost and counted, the queue is empty and no close waits any more. -/
structure Concludes (r : Reporter) (id : Nat) (s s' : State) : Prop where
  returns_eq : s'.returns = s.returns ++ [⟨id, s.now, .closed⟩]
  closings_eq : s'.closings = []
  slots_eq : s'.intake.queue.slots = []
  bytes_eq : s'.intake.queue.bytes = 0
  lost_eq : s'.journal.lost = s.journal.lost ++ s.queued.map Parcel.serial
  dropped_eq : s'.metrics.spansDropped = s.metrics.spansDropped + UInt64.ofNat s.queued.length
  gauges_eq : s'.metrics.queuedSpans = 0 ∧ s'.metrics.queuedBytes = 0
  notices_eq : s'.notices =
    s.notices ++ (if s.worker.alive then [.closeTimedOut r.closeTimeout] else [])
      ++ if s.queued = [] then [] else [.droppedAtClose s.queued.length]
  worker_eq : s'.worker = s.worker

/-- A close that looks at the latch waits on exactly if the worker detains it. -/
theorem awaitLatch?_eq (hl : s.latch = none ↔ s.worker.alive = false) (r : Reporter) (id : Nat)
    (deadline : Instant) :
    s.awaitLatch? r id deadline =
      if s.Detains deadline then none
      else some (endClose { s with notices := s.notices ++
        if s.worker.alive then [.closeTimedOut r.closeTimeout] else [] } id) := by
  unfold awaitLatch?
  cases ha : s.worker.alive with
  | false =>
    rw [if_pos (hl.2 ha), if_neg (by simp [Detains, ha])]
    simp
  | true =>
    have hshut : s.latch ≠ none := fun h => by rw [hl.1 h] at ha; cases ha
    by_cases hd : deadline ≤ s.now
    · simp [Detains, hshut, hd, note]
    · simp [Detains, hshut, hd, ha, Nat.lt_of_not_le hd]

/-- What is done at the end of a close brings it to its end, once no close is left waiting. -/
theorem concludes_endClose (r : Reporter) (s : State) (id : Nat) :
    s.Concludes r id
      { endClose { s with notices := s.notices ++
          if s.worker.alive then [.closeTimedOut r.closeTimeout] else [] } id with
        closings := [] } := by
  rw [endClose_eq]
  have hserials : (s.intake.queue.slots.map fun slot => slot.item.serial)
      = s.queued.map Parcel.serial := by
    simp [queued]
  refine ⟨rfl, rfl, rfl, rfl, ?_, ?_, ⟨rfl, rfl⟩, ?_, rfl⟩
  · rw [← hserials]
  · simp [Metrics.record, queued]
  · by_cases hq : s.intake.queue.slots = []
    · simp [queued, hq]
    · simp [queued, hq]

/-- The first close waits if a worker is alive and there is time to wait; otherwise it comes to its
end at once. -/
theorem Reachable.close_of_open (h : s.Reachable r) (hopen : s.closed = false) (id : Nat) :
    if s.Detains (s.now + r.closeTimeout) then
      s.close r id = { s.shut with closings := [⟨id, s.now + r.closeTimeout⟩] }
    else s.Concludes r id (s.close r id) := by
  have hnone := (h.no_close_of_open hopen).1
  have hlatched : s.shut.Latched := h.latched.releaseLatch.of_eq rfl rfl
  have hawait := awaitLatch?_eq (hlatched.latch_eq_none_iff (latch_releaseLatch s)) r id
    (s.now + r.closeTimeout)
  rw [State.close_of_open r id hopen]
  by_cases hd : s.Detains (s.now + r.closeTimeout)
  · rw [if_pos hd, hawait.trans (if_pos hd), hnone]
    rfl
  · rw [if_neg hd, hawait.trans (if_neg hd)]
    have hend := concludes_endClose r s.shut id
    rw [endClose_eq] at hend
    rw [Option.getD_some, endClose_eq, show s.shut.closings = [] from hnone]
    exact ⟨hend.1, hend.2, hend.3, hend.4, hend.5, hend.6, hend.7, hend.8, hend.9⟩

/-- The close that waits looks at the latch again, with the same result. -/
theorem Reachable.closeTurn_of_waiting (h : s.Reachable r) {id : Nat} {deadline : Instant}
    (hw : s.closings = [⟨id, deadline⟩]) :
    if s.Detains deadline then s.closeTurn r id = s
    else s.Concludes r id (s.closeTurn r id) := by
  have hclosed : s.closed = true := h.closed_of_closing (by simp [hw])
  have hreleased : s.latch ≠ some .reporter := fun hl => by
    have hopen := (h.keyed.reporter_iff.1 hl).2.1
    rw [hclosed] at hopen
    cases hopen
  have hawait := awaitLatch?_eq (h.latched.latch_eq_none_iff hreleased) r id deadline
  have herase : ([⟨id, deadline⟩] : List Closing).eraseP (fun c => c.id = id) = [] := by simp
  have hfind : s.closings.find? (fun c => c.id = id) = some ⟨id, deadline⟩ := by simp [hw]
  rw [closeTurn, hfind]
  dsimp only
  rw [hawait]
  by_cases hd : s.Detains deadline
  · simp only [if_pos hd]
  · have hend := concludes_endClose r s id
    rw [endClose_eq] at hend
    simp only [if_neg hd, endClose_eq, hw, herase]
    exact hend

/-! ## The run of a close -/

/-- A close begins to wait only as it is called at an open reporter, and waits on but for turns of
its own. -/
theorem closings_step (hc : s.closed = true) (r : Reporter) {e : Event}
    (he : ∀ id, e = .closeTurn id → ∀ c ∈ s.closings, c.id ≠ id) :
    (s.step r e).closings = s.closings := by
  cases e with
  | report span =>
    obtain ⟨started, latch, worker, hstart⟩ := startWorker_frame r s
    rw [step, report_of_closed hc, lose_eq, hstart]
    rfl
  | flush id => exact (Serves.flush r s id).closings_eq
  | close id =>
    rw [step, close_of_closed hc]
    rfl
  | drop =>
    rw [step, drop_of_closed hc]
    rfl
  | workerTurn => exact (Serves.workerTurn r s).closings_eq
  | closeTurn id =>
    rcases closeTurn_cases r s id with hs | ⟨c, notices, hmem, hid, -, -⟩
    · rw [step, hs]
    · exact absurd hid (he id rfl c hmem)
  | sendEnds sender outcome =>
    cases sender with
    | worker => exact (Serves.workerSendEnds r s outcome).closings_eq
    | call id => exact (Serves.flushSendEnds r s id outcome).closings_eq
  | pass time => rfl

theorem closed_run (hc : s.closed = true) (later : List Event) :
    (s.run r later).closed = true := by
  induction later generalizing s with
  | nil => exact hc
  | cons e rest ih => exact ih (closed_step_of_closed hc r e)

/-- Once no close waits any more at a closed reporter, none does later. -/
theorem closings_run_of_nil (hc : s.closed = true) (hn : s.closings = []) (later : List Event) :
    (s.run r later).closings = [] := by
  induction later generalizing s with
  | nil => exact hn
  | cons e rest ih =>
    have hkept : (s.step r e).closings = s.closings :=
      closings_step hc r fun _ _ c hmem => by simp [hn] at hmem
    exact ih (closed_step_of_closed hc r e) (hkept.trans hn)

/-- Up to the end of the events the worker detains a close at each of its turns. -/
def DetainsThrough (r : Reporter) (s : State) (id : Nat) (deadline : Instant) (later : List Event) :
    Prop :=
  ∀ before after, later = before ++ .closeTurn id :: after → (s.run r before).Detains deadline

/-- At one of its turns the close comes to its end, and the worker has detained it at all those
before. -/
def ConcludesWithin (r : Reporter) (s : State) (id : Nat) (deadline : Instant)
    (later : List Event) : Prop :=
  ∃ before after, later = before ++ .closeTurn id :: after
    ∧ s.DetainsThrough r id deadline before
    ∧ ¬ (s.run r before).Detains deadline
    ∧ (s.run r before).Concludes r id ((s.run r before).step r (.closeTurn id))

theorem DetainsThrough.cons {id : Nat} {deadline : Instant} {e : Event} {later : List Event}
    (he : e = .closeTurn id → s.Detains deadline)
    (hl : (s.step r e).DetainsThrough r id deadline later) :
    s.DetainsThrough r id deadline (e :: later) := by
  intro before after heq
  cases before with
  | nil =>
    obtain ⟨rfl, -⟩ := List.cons.inj heq
    exact he rfl
  | cons e' before =>
    obtain ⟨rfl, hrest⟩ := List.cons.inj heq
    exact hl before after hrest

/-- A close that waits goes on waiting as long as the worker detains it at each of its turns, and
comes to its end at the first one at which it does not. -/
theorem Reachable.closings_run (h : s.Reachable r) {id : Nat} {deadline : Instant}
    (hw : s.closings = [⟨id, deadline⟩]) (later : List Event) :
    ((s.run r later).closings = [⟨id, deadline⟩] ∧ s.DetainsThrough r id deadline later)
      ∨ ((s.run r later).closings = [] ∧ s.ConcludesWithin r id deadline later) := by
  induction later generalizing s with
  | nil => exact .inl ⟨hw, fun before after heq => by simp at heq⟩
  | cons e rest ih =>
    have hclosed : s.closed = true := h.closed_of_closing (by simp [hw])
    by_cases hlook : e = .closeTurn id ∧ ¬ s.Detains deadline
    · -- this turn is the last
      obtain ⟨rfl, hfree⟩ := hlook
      have hend := h.closeTurn_of_waiting hw
      rw [if_neg hfree] at hend
      refine .inr ⟨?_, [], rest, rfl, fun before after heq => by simp at heq, hfree, hend⟩
      have hstep := closed_step_of_closed hclosed r (.closeTurn id)
      exact closings_run_of_nil hstep hend.closings_eq rest
    · have hdetains : e = .closeTurn id → s.Detains deadline := fun he =>
        Classical.byContradiction fun hfree => hlook ⟨he, hfree⟩
      have hkept : (s.step r e).closings = [⟨id, deadline⟩] := by
        by_cases he : e = .closeTurn id
        · have hturn := h.closeTurn_of_waiting hw
          rw [if_pos (hdetains he)] at hturn
          rw [he, State.step, hturn, hw]
        · rw [← hw]
          refine closings_step hclosed r fun id' he' c hmem hid => he ?_
          rw [hw, List.mem_singleton] at hmem
          rw [he', ← hid, hmem]
      rcases ih (h.step e) hkept with ⟨hwaits, hthrough⟩ |
        ⟨hnone, before, after, heq, hthrough, hfree, hend⟩
      · exact .inl ⟨hwaits, hthrough.cons hdetains⟩
      · have hcons : e :: rest = (e :: before) ++ .closeTurn id :: after := by
          rw [heq]
          rfl
        exact .inr ⟨hnone, e :: before, after, hcons, hthrough.cons hdetains, hfree, hend⟩

/-- Whatever happens, the latch is open whenever a close looks at it and no worker is alive. At most
one worker is ever started, and none without background sending or once the reporter is closed; a
worker that has started has not been alive before, and no other event brings one to life. The latch
is open as soon as the worker has ended, and after a close exactly if no worker is alive. The close
returns at once if there is no worker or no time; otherwise it waits as long as the worker is alive
and its time is not up at each of its turns, and returns at the first one at which that is not so.
Either way it empties the queue and counts what was in it as dropped. -/
theorem close_waits_for_worker (r : Reporter) (earlier : List Event) :
    let s := (initial r).run r earlier
    (initial r).hired r earlier ≤ (if r.background then 1 else 0)
      ∧ (∀ e, s.hires e = true → s.worker = .absent ∧ s.closed = false ∧ r.background = true)
      ∧ (∀ e, s.hires e = false → (s.step r e).worker.alive = true → s.worker.alive = true)
      ∧ (s.latch = none ↔ s.worker.alive = false
        ∧ (s.worker = .absent → s.closed = true ∨ r.background = false))
      ∧ ∀ id, s.closed = false →
        let deadline := s.now + r.closeTimeout
        let t := s.step r (.close id)
        (if s.Detains deadline then
            t.closings = [⟨id, deadline⟩] ∧ t.returns = s.returns ∧ t.queued = s.queued
              ∧ t.worker = s.worker
          else s.Concludes r id t)
        ∧ ∀ later,
          t.hired r later = 0
          ∧ ((t.run r later).latch = none ↔ (t.run r later).worker.alive = false)
          ∧ (s.Detains deadline →
            ((t.run r later).closings = [⟨id, deadline⟩] ∧ t.DetainsThrough r id deadline later)
              ∨ ((t.run r later).closings = [] ∧ t.ConcludesWithin r id deadline later)) := by
  intro s
  have hs : s.Reachable r := ⟨earlier, rfl⟩
  refine ⟨?_, fun e hh => ((hs.hires_iff e).1 hh).2, fun e hh ha => ?_,
    hs.latch_eq_none_iff, ?_⟩
  · refine Nat.le_trans ((reachable_initial r).hired_le earlier) ?_
    split
    · next hfree => exact Nat.le_of_eq (if_pos hfree.2.2).symm
    · exact Nat.zero_le _
  · rcases worker_step r s e with ⟨hh', -⟩ | ⟨-, hsame | ⟨halive, -⟩⟩
    · rw [hh] at hh'
      cases hh'
    · rwa [hsame] at ha
    · exact halive
  · intro id hopen deadline t
    have ht : t.Reachable r := hs.step _
    have hcall := hs.close_of_open hopen id
    have hclosed : t.closed = true := by rw [closed_step, Event.closes, Bool.or_true]
    refine ⟨?_, fun later => ⟨?_, ?_, fun hd => ?_⟩⟩
    · by_cases hd : s.Detains deadline
      · rw [if_pos hd] at hcall ⊢
        rw [show t = _ from hcall]
        exact ⟨rfl, rfl, rfl, rfl⟩
      · rw [if_neg hd] at hcall ⊢
        exact hcall
    · have hle := ht.hired_le later
      rw [if_neg (by simp [hclosed])] at hle
      exact Nat.le_zero.1 hle
    · have hlater : (t.run r later).Reachable r :=
        ⟨earlier ++ .close id :: later, run_append r _ _ _⟩
      have hshut : (t.run r later).closed = true := closed_run hclosed later
      rw [hlater.latch_eq_none_iff]
      exact ⟨And.left, fun ha => ⟨ha, fun _ => .inl hshut⟩⟩
    · rw [if_pos hd] at hcall
      exact ht.closings_run (congrArg State.closings hcall) later

/-- A worker that has a message with the transport as the reporter is closed. The close has two
turns while the send is under way; then the send crashes, and the close returns at its next turn. -/
theorem patient_crashes :
    let span : Span := default
    let earlier : List Event := [.report span, .workerTurn, .pass 10, .workerTurn]
    let later : List Event :=
      [.closeTurn 1, .pass 4, .closeTurn 1, .sendEnds .worker .crashed, .closeTurn 1]
    let s := (initial .patient).run .patient earlier
    let t := s.step .patient (.close 1)
    s.Detains (s.now + Reporter.patient.closeTimeout)
      ∧ (initial .patient).hired .patient earlier = 1
      ∧ t.closings = [⟨1, 15⟩]
      ∧ (t.run .patient later).returns = [⟨1, 14, .closed⟩]
      ∧ ((t.run .patient later).latch = none ↔ (t.run .patient later).worker.alive = false)
      ∧ t.ConcludesWithin .patient 1 15 later := by
  intro span earlier later s t
  have hopen : s.closed = false := by decide +kernel
  have hdetains : s.Detains (s.now + Reporter.patient.closeTimeout) := by decide +kernel
  obtain ⟨-, -, -, -, hclose⟩ := close_waits_for_worker .patient earlier
  obtain ⟨hcall, hrun⟩ := hclose 1 hopen
  obtain ⟨-, hlatch, hends⟩ := hrun later
  rw [if_pos hdetains] at hcall
  refine ⟨hdetains, by decide +kernel, hcall.1, by decide +kernel, hlatch, ?_⟩
  rcases hends hdetains with ⟨hwaits, -⟩ | ⟨-, hconcludes⟩
  · exact absurd hwaits (by decide +kernel)
  · exact hconcludes

end State

end SpanCourier
