import SpanCourier.Proofs.Reporter.Rounds

set_option autoImplicit false

/-! # Closing is final

Closing a reporter wakes its worker. A worker that waited finishes the cycle that it had begun, and
then there is one more, which is its last; any other worker has only its last cycle ahead.
`Worker.toGo` counts what a worker has before it, in turns and ends of sends. No event adds to it
(`State.WindsDown`), and every turn and end of a send that the worker is due to have takes something
off. So the worker sends at most two messages, never waits again, and ends.

The close itself returns once the worker has ended or its time is up. From then on the queue is
empty, and no call changes anything but its own return and, if it is a report, what is counted
(`State.ClosedBy`).
-/

namespace SpanCourier

variable {r : Reporter}

/-! ## The wake-up -/

/-- A worker that waits is known to the signal; once the reporter is closed it has been notified. -/
def Dock.Roused (d : Dock) : Prop :=
  ∀ batch since deadline, d.worker = .parked batch since deadline →
    d.signal.waiter ≠ .absent ∧ (d.closed = true → d.signal.waiter = .notified)

theorem Dock.Roused.happens {d d' : Dock} (hd : d.Happens r d') (h : d.Roused) : d'.Roused := by
  cases hd with
  | pass now goes => exact h
  | hire => exact fun _ _ _ hw => by cases hw
  | refuse => exact h
  | enqueue span isOpen fits =>
    intro batch since deadline hw
    have hnotified := Signal.waiter_notify (h batch since deadline hw).1
    exact ⟨by rw [hnotified]; exact nofun, fun _ => hnotified⟩
  | flush batch left isOpen drains => exact h
  | shut =>
    intro batch since deadline hw
    have hnotified := Signal.waiter_notify (h batch since deadline hw).1
    exact ⟨by rw [hnotified]; exact nofun, fun _ => hnotified⟩
  | clear isClosed => exact h
  | sent batch message sending => exact fun _ _ _ hw => by cases hw
  | leave => exact fun _ _ _ hw => by cases hw

namespace State

variable {s s₁ s' : State}

theorem Reachable.roused (h : s.Reachable r) : s.dock.Roused := by
  refine h.dock_induction (P := Dock.Roused) (fun _ _ _ hw => by cases hw)
    (fun _ _ hd hp => hp.happens hd) fun s _ hp => ?_
  rcases dock_workerTurn r s with hs | ⟨fresh, batch, -, hopen, -, -, hs⟩ |
    ⟨batch, taken, left, s₁, batch₁, last, s₂, batch₂, message, -, -, hs⟩ |
    ⟨batch, slot, left, signal, -, -, hs⟩
  · rw [hs]
    exact hp
  · rw [hs]
    intro own since deadline _
    refine ⟨nofun, fun hclosed => ?_⟩
    rw [show s.closed = true from hclosed] at hopen
    cases hopen
  · rw [hs]
    exact fun own since deadline hw => absurd hw (Worker.onward_ne_parked _ _ _ _ _ _)
  · rw [hs]
    exact fun own since deadline hw => by cases hw

end State

/-! ## What a worker has before it -/

/-- The turns and the ends of sends that the worker of a closed reporter still has, at most. -/
def Worker.toGo : Worker → Nat
  | parked _ _ _ => 4
  | sending _ _ last => if last then 1 else 3
  | ready _ _ => 2
  | absent => 0
  | gone => 0

namespace Worker

@[simp] theorem toGo_parked (batch : Batch Parcel) (since deadline : Instant) :
    (parked batch since deadline).toGo = 4 := rfl

@[simp] theorem toGo_ready (fresh : Bool) (batch : Batch Parcel) :
    (ready fresh batch).toGo = 2 := rfl

@[simp] theorem toGo_sending (batch : Batch Parcel) (message : List Parcel) (last : Bool) :
    (sending batch message last).toGo = if last then 1 else 3 := rfl

theorem toGo_le (w : Worker) : w.toGo ≤ 4 := by
  cases w with
  | sending batch message last => cases last <;> simp
  | _ => simp [toGo]

theorem toGo_of_not_parked {w : Worker}
    (h : ∀ batch since deadline, w ≠ .parked batch since deadline) : w.toGo ≤ 3 := by
  cases w with
  | parked batch since deadline => exact absurd rfl (h batch since deadline)
  | sending batch message last => cases last <;> simp
  | _ => simp [toGo]

/-- A worker at the queue is due to have a turn. -/
theorem toGo_of_batch? {w : Worker} (h : w.batch? ≠ none) : 2 ≤ w.toGo := by
  cases w with
  | absent => exact absurd rfl h
  | ready fresh batch => simp
  | parked batch since deadline => simp
  | sending batch message last => exact absurd rfl h
  | gone => exact absurd rfl h

/-- Any other worker is due to have the end of its send, or has nothing before it. -/
theorem toGo_of_batch?_eq_none {w : Worker} (h : w.batch? = none) :
    w.toGo = 0 ∨ w.toGo % 2 = 1 := by
  cases w with
  | absent => exact .inl rfl
  | ready fresh batch => cases h
  | parked batch since deadline => cases h
  | sending batch message last => cases last <;> simp
  | gone => exact .inl rfl

theorem alive_of_toGo {w : Worker} (h : w.toGo = 0) : w.alive = false := by
  cases w with
  | absent => rfl
  | ready fresh batch => cases h
  | parked batch since deadline => cases h
  | sending batch message last =>
    cases last with
    | true => cases h
    | false => cases h
  | gone => rfl

theorem onward_ne_absent (batch : Batch Parcel) (message : List Parcel) (last : Bool) :
    onward batch message last ≠ .absent := by
  unfold onward
  split
  · split
    · exact nofun
    · exact nofun
  · exact nofun

/-- After a turn that is not the last, a worker has its last cycle before it, and the end of its
send if it has started one. -/
theorem toGo_onward (batch : Batch Parcel) (message : List Parcel) (last : Bool) :
    (onward batch message last).toGo =
      if message = [] then if last then 0 else 2 else if last then 1 else 3 := by
  unfold onward
  split
  · cases last with
    | true => rfl
    | false => rfl
  · rfl

end Worker

namespace State

variable {s s₁ s' : State}

/-! ## Calls to a closed reporter -/

/-- A report is counted, and its span is lost. -/
theorem report_of_closed (hc : s.closed = true) (span : Span) :
    s.report r span = ((s.startWorker r).counted r span).lose [s.journal.reported.length] := by
  rcases report_cases r s span with ⟨-, hr⟩ | ⟨hj, -⟩
  · exact hr
  · rw [rejects, hc, Bool.true_or] at hj
    cases hj

/-- It starts no worker if the reporter has let go of the latch. -/
theorem startWorker_of_released (hl : s.latch ≠ some .reporter) :
    ∃ started, s.startWorker r = { s with started } := by
  rcases startWorker_cases r s with ⟨-, hs⟩ | ⟨-, -, hs⟩ | ⟨-, hlatch, -⟩
  · exact ⟨s.started, hs⟩
  · exact ⟨true, hs⟩
  · exact absurd hlatch hl

theorem flush_of_closed (hc : s.closed = true) (id : Nat) :
    s.flush r id = s.finish id (.flushed (some .closed)) := by
  rw [flush, if_pos hc]

theorem close_of_closed (hc : s.closed = true) (id : Nat) :
    s.close r id = s.finish id .closed := by
  rw [close, if_pos hc]

theorem drop_of_closed (hc : s.closed = true) : s.drop = s.releaseLatch := by
  rw [drop, if_pos (show s.releaseLatch.closed = true from hc)]

/-! ## The worker of a closed reporter -/

/-- A closed reporter whose latch it has let go of itself, so that no worker comes any more. -/
structure Retired (r : Reporter) (s : State) : Prop where
  reachable : s.Reachable r
  isClosed : s.closed = true
  released : s.latch ≠ some .reporter

/-- From one state to a later one the worker has not begun to wait, and only it has handed over
messages. Each of them has taken two stages off what it had before it. -/
structure WindsDown (s s' : State) : Prop where
  sent : ∃ sent, s'.journal.handovers = s.journal.handovers ++ sent
    ∧ (∀ h ∈ sent, h.sender = .worker) ∧ sent.length + s'.worker.toGo / 2 ≤ s.worker.toGo / 2
  toGo_le : s'.worker.toGo ≤ s.worker.toGo
  parked : ∀ batch since deadline,
    s'.worker = .parked batch since deadline → s.worker = .parked batch since deadline

namespace WindsDown

theorem of_eq (hw : s'.worker = s.worker) (hh : s'.journal.handovers = s.journal.handovers) :
    s.WindsDown s' := by
  refine ⟨⟨[], ?_, nofun, ?_⟩, ?_, ?_⟩
  · rw [hh, List.append_nil]
  · rw [List.length_nil, Nat.zero_add]
    exact Nat.le_of_eq (congrArg (fun w : Worker => w.toGo / 2) hw)
  · exact Nat.le_of_eq (congrArg Worker.toGo hw)
  · intro batch since deadline hp
    rw [← hw]
    exact hp

theorem trans (h : s.WindsDown s₁) (h' : s₁.WindsDown s') : s.WindsDown s' := by
  obtain ⟨sent, hh, hall, hlength⟩ := h.sent
  obtain ⟨sent', hh', hall', hlength'⟩ := h'.sent
  refine ⟨⟨sent ++ sent', ?_, List.forall_mem_append.2 ⟨hall, hall'⟩, ?_⟩,
    Nat.le_trans h'.toGo_le h.toGo_le, ?_⟩
  · rw [hh', hh, List.append_assoc]
  · rw [List.length_append]
    omega
  · exact fun batch since deadline hp =>
      h.parked batch since deadline (h'.parked batch since deadline hp)

end WindsDown

/-- The worker of a closed reporter gets past the queue at once, if it does not crash there; only a
worker that had waited does so for another time after that. -/
theorem fill_of_closed (hs : s.Reachable r) (hc : s.closed = true)
    (hb : s.worker.batch? ≠ none) :
    (∃ s' batch last, s.fill r = .over s' batch last ∧ (last = false → s.worker.toGo = 4))
      ∨ ∃ s' batch, s.fill r = .crashed s' batch := by
  cases hw : s.worker with
  | absent => exact absurd (by rw [hw]; rfl) hb
  | ready fresh batch =>
    obtain ⟨notices, hf⟩ := fill_ready r hw
    rcases beginCycle_cases { s with notices } batch with
      ⟨hopen, -⟩ | ⟨-, taken, left, batch', -, he⟩ | ⟨slot, left, -, he⟩
    · exact absurd (hopen.symm.trans hc) Bool.false_ne_true
    · refine .inl ⟨_, _, _, hf.trans he, fun hlast => ?_⟩
      exact absurd (hlast.symm.trans hc) Bool.false_ne_true
    · exact .inr ⟨_, _, hf.trans he⟩
  | parked batch since deadline =>
    have hnotified := (hs.roused batch since deadline hw).2 hc
    rcases resume_cases r hw with
      ⟨-, taken, left, batch', -, he⟩ | ⟨hn, -⟩ | ⟨hn, -⟩ | ⟨-, slot, left, -, he⟩
    · exact .inl ⟨_, _, _, he, fun _ => rfl⟩
    · exact absurd hnotified hn
    · exact absurd hnotified hn
    · exact .inr ⟨_, _, he⟩
  | sending batch message last => exact absurd (by rw [hw]; rfl) hb
  | gone => exact absurd (by rw [hw]; rfl) hb

/-- What the worker makes of its batch: it hands over the message, unless there is none. -/
theorem sendBatch_onward (r : Reporter) (s : State) (batch : Batch Parcel) (last : Bool) :
    ∃ batch' message,
      (s.sendBatch r batch last).worker = .onward batch' message last
      ∧ (s.sendBatch r batch last).journal.handovers =
        s.journal.handovers ++ if message = [] then [] else [⟨.worker, message, s.now⟩] := by
  obtain ⟨s', batch', message, hd, hs⟩ := sendBatch_cases r s batch last
  obtain ⟨metrics, notices, lost, rfl⟩ := dispatch_frame hd
  refine ⟨batch', message, ?_⟩
  rcases hs with ⟨hm, hs⟩ | ⟨hm, hs⟩
  · have hworker := congrArg Dock.worker
      (dock_endCycle { s with metrics, notices, journal := { s.journal with lost } } batch' last)
    obtain ⟨_, _, _, _, _, hcycle, -⟩ :=
      endCycle_frame { s with metrics, notices, journal := { s.journal with lost } } batch' last
    rw [hs, Worker.onward, if_pos hm, if_pos hm, List.append_nil]
    exact ⟨hworker, by rw [hcycle]⟩
  · rw [hs, Worker.onward, if_neg hm, if_neg hm]
    exact ⟨rfl, rfl⟩

/-- A turn of the worker of a closed reporter that is at the queue. -/
theorem turn_of_closed (hs : s.Reachable r) (hc : s.closed = true)
    (hb : s.worker.batch? ≠ none) :
    ∃ batch message last,
      (s.workerTurn r).worker = .onward batch message last
      ∧ (s.workerTurn r).journal.handovers =
        s.journal.handovers ++ (if message = [] then [] else [⟨.worker, message, s.now⟩])
      ∧ (last = false → s.worker.toGo = 4) := by
  rcases fill_of_closed hs hc hb with ⟨s', batch, last, hf, hlast⟩ | ⟨s', batch, hf⟩
  · obtain ⟨start, taken, left, signal, notices, -, -, rfl, -⟩ := fill_drains hf
    obtain ⟨batch', message, hworker, hhandovers⟩ :=
      sendBatch_onward r ({ s with notices }.drained taken left signal) batch last
    have hturn : s.workerTurn r =
        ({ s with notices }.drained taken left signal).sendBatch r batch last := by
      rw [workerTurn, hf]
    rw [hturn]
    exact ⟨batch', message, last, hworker, hhandovers, hlast⟩
  · -- a crash ends the worker, as its last cycle does
    obtain ⟨slot, left, signal, notices, -, hspill, rfl⟩ := fill_crashes hf
    have hturn : s.workerTurn r =
        ({ s with notices }.spilled slot left signal).endWorker batch true := by
      rw [workerTurn, hf]
    rw [hturn, endWorker_of_empty _ hspill.slots_eq]
    exact ⟨batch, [], true, rfl, (List.append_nil _).symm, fun h => absurd h (by decide)⟩

theorem toGo_endWorker (s : State) (batch : Batch Parcel) (crashed : Bool) :
    (s.endWorker batch crashed).worker.toGo = 0 := by
  rw [endWorker_eq]
  rfl

theorem toGo_endCycle (s : State) (batch : Batch Parcel) (last : Bool) :
    (s.endCycle batch last).worker.toGo = if last then 0 else 2 := by
  cases last with
  | true => exact toGo_endWorker s batch false
  | false => rfl

/-- The end of its send takes the worker on to the next cycle, unless it ends. -/
theorem toGo_after_send {batch : Batch Parcel} {message : List Parcel} {last : Bool}
    (hw : s.worker = .sending batch message last) (r : Reporter) (outcome : Outcome) :
    (s.workerSendEnds r outcome).worker.toGo ≤ if last then 0 else 2 := by
  have hcycle : ∀ t : State, (t.endCycle batch last).worker.toGo ≤ if last then 0 else 2 :=
    fun t => Nat.le_of_eq (toGo_endCycle t batch last)
  have hends : ∀ (t : State) crashed,
      (t.endWorker batch crashed).worker.toGo ≤ if last then 0 else 2 := by
    intro t crashed
    rw [toGo_endWorker]
    exact Nat.zero_le _
  rw [workerSendEnds, hw]
  cases outcome with
  | sent => exact hcycle _
  | crashed => exact hends _ true
  | failed error =>
    dsimp only
    split
    · exact hends _ false
    · exact hcycle _

/-- The end of a send changes nothing for a worker that is not due to have it, and takes something
off otherwise. -/
theorem toGo_workerSendEnds (r : Reporter) (s : State) (outcome : Outcome) :
    (s.workerSendEnds r outcome).worker = s.worker ∧ s.worker.toGo % 2 = 0
      ∨ (s.workerSendEnds r outcome).worker.toGo < s.worker.toGo
        ∧ (s.workerSendEnds r outcome).worker.toGo ≤ 2 := by
  cases hw : s.worker with
  | absent => exact .inl ⟨by rw [workerSendEnds, hw]; exact hw, rfl⟩
  | ready fresh batch => exact .inl ⟨by rw [workerSendEnds, hw]; exact hw, by simp⟩
  | parked batch since deadline => exact .inl ⟨by rw [workerSendEnds, hw]; exact hw, by simp⟩
  | sending batch message last =>
    right
    have hnext := toGo_after_send hw r outcome
    cases last with
    | true =>
      rw [if_pos rfl] at hnext
      exact ⟨Nat.lt_succ_of_le hnext, Nat.le_succ_of_le (Nat.le_succ_of_le hnext)⟩
    | false =>
      rw [if_neg Bool.false_ne_true] at hnext
      exact ⟨Nat.lt_succ_of_le hnext, hnext⟩
  | gone => exact .inl ⟨by rw [workerSendEnds, hw]; exact hw, rfl⟩

namespace WindsDown

theorem workerTurn (h : s.Retired r) : s.WindsDown (s.workerTurn r) := by
  by_cases hb : s.worker.batch? = none
  · rw [workerTurn_of_batch?_eq_none hb]
    exact of_eq rfl rfl
  · obtain ⟨batch, message, last, hworker, hhandovers, hlast⟩ :=
      turn_of_closed h.reachable h.isClosed hb
    have hqueue := Worker.toGo_of_batch? hb
    have hcount : (if message = [] then [] else
          [(⟨.worker, message, s.now⟩ : Handover)]).length
          + (Worker.onward batch message last).toGo / 2 ≤ s.worker.toGo / 2
        ∧ (Worker.onward batch message last).toGo ≤ s.worker.toGo := by
      rw [Worker.toGo_onward]
      cases last with
      | true =>
        split
        · simp
        · simp only [List.length_singleton, if_true]
          omega
      | false =>
        rw [hlast rfl]
        split
        · simp
        · simp
    rw [← hworker] at hcount
    refine ⟨⟨_, hhandovers, ?_, hcount.1⟩, hcount.2, ?_⟩
    · split
      · exact nofun
      · intro h hmem
        rw [List.mem_singleton] at hmem
        rw [hmem]
    · intro own since deadline hp
      rw [hworker] at hp
      exact absurd hp (Worker.onward_ne_parked _ _ _ _ _ _)

theorem workerSendEnds (r : Reporter) (s : State) (outcome : Outcome) :
    s.WindsDown (s.workerSendEnds r outcome) := by
  obtain ⟨worker, _, _, _, _, _, _, hframe⟩ := workerSendEnds_frame r s outcome
  have hhandovers : (s.workerSendEnds r outcome).journal.handovers = s.journal.handovers := by
    rw [hframe]
  rcases toGo_workerSendEnds r s outcome with ⟨hw, -⟩ | ⟨hlt, hle⟩
  · exact of_eq hw hhandovers
  · refine ⟨⟨[], ?_, nofun, ?_⟩, Nat.le_of_lt hlt, ?_⟩
    · rw [hhandovers, List.append_nil]
    · rw [List.length_nil, Nat.zero_add]
      exact Nat.div_le_div_right (Nat.le_of_lt hlt)
    · intro batch since deadline hp
      rw [hp, Worker.toGo_parked] at hle
      exact absurd hle (by decide)

end WindsDown

theorem released_endWorker (h : s.latch ≠ some .reporter) (batch : Batch Parcel) (crashed : Bool) :
    (s.endWorker batch crashed).latch ≠ some .reporter := by
  rw [endWorker_eq]
  dsimp only
  split
  · exact nofun
  · exact h

theorem released_endCycle (h : s.latch ≠ some .reporter) (batch : Batch Parcel) (last : Bool) :
    (s.endCycle batch last).latch ≠ some .reporter := by
  cases last with
  | true => exact released_endWorker h batch false
  | false => exact h

namespace Retired

theorem workerSendEnds (h : s.Retired r) (outcome : Outcome) :
    (s.workerSendEnds r outcome).latch ≠ some .reporter := by
  rcases workerSendEnds_cases r s outcome with hs | ⟨batch, message, last, -, hs⟩
  · rw [hs]
    exact h.released
  · obtain ⟨metrics, notices₁, warned, endings, lost, he⟩ :=
      endSend_frame r s .worker message outcome
    rw [he] at hs
    rcases hs with ⟨-, hs⟩ | ⟨notices, crashed, hs⟩
    · rw [hs]
      exact released_endCycle (by exact h.released) batch last
    · rw [hs]
      exact released_endWorker (by exact h.released) batch crashed

theorem workerTurn (h : s.Retired r) : (s.workerTurn r).latch ≠ some .reporter := by
  by_cases hb : s.worker.batch? = none
  · rw [workerTurn_of_batch?_eq_none hb]
    exact h.released
  · -- a worker that has had a turn is there, so the reporter does not hold the latch
    obtain ⟨batch, message, last, hworker, -, -⟩ := turn_of_closed h.reachable h.isClosed hb
    intro hlatch
    have habsent := (h.reachable.step .workerTurn).latched.absent hlatch
    exact Worker.onward_ne_absent batch message last (hworker.symm.trans habsent)

/-- At a closed reporter no worker comes any more, and no event adds to what is before the one that
is there. -/
theorem step (h : s.Retired r) (e : Event) :
    (s.step r e).Retired r ∧ s.WindsDown (s.step r e) := by
  -- most events have nothing to do with the worker
  have aside : ∀ {s' : State}, s'.latch = s.latch → s'.worker = s.worker →
      s'.journal.handovers = s.journal.handovers →
      s'.latch ≠ some .reporter ∧ s.WindsDown s' :=
    fun hl hw hh => ⟨hl ▸ h.released, .of_eq hw hh⟩
  have hboth : (s.step r e).latch ≠ some .reporter ∧ s.WindsDown (s.step r e) := by
    cases e with
    | report span =>
      obtain ⟨started, hs⟩ := startWorker_of_released (r := r) h.released
      rw [State.step, report_of_closed h.isClosed, hs, lose_eq]
      exact aside rfl rfl rfl
    | flush id =>
      rw [State.step, flush_of_closed h.isClosed]
      exact aside rfl rfl rfl
    | close id =>
      rw [State.step, close_of_closed h.isClosed]
      exact aside rfl rfl rfl
    | drop =>
      rw [State.step, drop_of_closed h.isClosed]
      exact aside (if_neg h.released) rfl rfl
    | workerTurn => exact ⟨h.workerTurn, .workerTurn h⟩
    | closeTurn id =>
      rcases closeTurn_cases r s id with hs | ⟨c, notices, -, -, -, hs⟩
      · rw [State.step, hs]
        exact aside rfl rfl rfl
      · rw [State.step, hs, endClose_eq]
        exact aside rfl rfl rfl
    | sendEnds sender outcome =>
      cases sender with
      | worker => exact ⟨h.workerSendEnds outcome, .workerSendEnds r s outcome⟩
      | call id =>
        obtain ⟨_, _, _, _, _, _, _, hs⟩ := flushSendEnds_frame r s id outcome
        rw [State.step, hs]
        exact aside rfl rfl rfl
    | pass time => exact aside rfl rfl rfl
  refine ⟨⟨h.reachable.step e, ?_, hboth.1⟩, hboth.2⟩
  exact closed_step_of_closed h.isClosed r e

theorem run (h : s.Retired r) (later : List Event) :
    (s.run r later).Retired r ∧ s.WindsDown (s.run r later) := by
  induction later generalizing s with
  | nil => exact ⟨h, .of_eq rfl rfl⟩
  | cons e rest ih =>
    obtain ⟨hstep, hwinds⟩ := h.step e
    obtain ⟨hrun, hrest⟩ := ih hstep
    exact ⟨hrun, hwinds.trans hrest⟩

/-! ### The end of the worker -/

theorem toGo_workerTurn (h : s.Retired r) {k : Nat} (hk : s.worker.toGo ≤ 2 * k + 2) :
    (s.workerTurn r).worker.toGo ≤ 2 * k + 1 := by
  by_cases hb : s.worker.batch? = none
  · rw [workerTurn_of_batch?_eq_none hb]
    have hodd := Worker.toGo_of_batch?_eq_none hb
    omega
  · obtain ⟨batch, message, last, hworker, -, hlast⟩ := turn_of_closed h.reachable h.isClosed hb
    rw [hworker, Worker.toGo_onward]
    cases last with
    | true =>
      simp only [if_true]
      split <;> omega
    | false =>
      rw [hlast rfl] at hk
      simp only [Bool.false_eq_true, if_false]
      split <;> omega

theorem toGo_sendEnds (r : Reporter) (outcome : Outcome) {k : Nat}
    (hk : s.worker.toGo ≤ 2 * k + 1) : (s.workerSendEnds r outcome).worker.toGo ≤ 2 * k := by
  rcases toGo_workerSendEnds r s outcome with ⟨hw, heven⟩ | ⟨hlt, -⟩
  · rw [hw]
    omega
  · omega

/-- An event that takes something off does so wherever it happens. -/
theorem toGo_of_mem (h : s.Retired r) {later : List Event} {e : Event} {m n : Nat}
    (lowers : ∀ t : State, t.Retired r → t.worker.toGo ≤ m → (t.step r e).worker.toGo ≤ n)
    (he : e ∈ later) (hm : s.worker.toGo ≤ m) : (s.run r later).worker.toGo ≤ n := by
  obtain ⟨before, after, rfl⟩ := List.append_of_mem he
  obtain ⟨hbefore, hwinds⟩ := h.run before
  have hstep := lowers _ hbefore (Nat.le_trans hwinds.toGo_le hm)
  rw [run_append]
  exact Nat.le_trans ((hbefore.step e).1.run after).2.toGo_le hstep

/-- A turn and the end of a send, with whatever else between them, take two stages off. -/
theorem toGo_round (h : s.Retired r) {later : List Event} {outcome : Outcome} {k : Nat}
    (hl : (Event.round outcome).Sublist later) (hk : s.worker.toGo ≤ 2 * k + 2) :
    (s.run r later).worker.toGo ≤ 2 * k := by
  obtain ⟨first, rest, rfl, hturn, hends⟩ := List.cons_sublist_iff.1 hl
  have hfirst := h.toGo_of_mem (fun t ht hm => ht.toGo_workerTurn hm) hturn hk
  rw [run_append]
  exact (h.run first).1.toGo_of_mem (fun t _ hm => toGo_sendEnds r outcome hm)
    (List.singleton_sublist.1 hends) hfirst

/-- Two rounds are enough for the worker to end. -/
theorem alive_run (h : s.Retired r) {later : List Event} {o₁ o₂ : Outcome}
    (hl : (Event.rounds [o₁, o₂]).Sublist later) : (s.run r later).worker.alive = false := by
  obtain ⟨first, rest, rfl, hfirst, hrest⟩ :=
    List.append_sublist_iff.1 (show (Event.round o₁ ++ Event.round o₂).Sublist later from hl)
  have htwo := h.toGo_round hfirst (k := 1) s.worker.toGo_le
  rw [run_append]
  have hnone := (h.run first).1.toGo_round hrest (k := 0) htwo
  exact Worker.alive_of_toGo (Nat.le_zero.1 hnone)

/-- A turn brings a worker that waits past the queue, and it does not wait again. -/
theorem not_parked (h : s.Retired r) {later : List Event} (hl : .workerTurn ∈ later)
    (batch : Batch Parcel) (since deadline : Instant) :
    (s.run r later).worker ≠ .parked batch since deadline := by
  intro hp
  have hthree := h.toGo_of_mem (fun t ht hm => ht.toGo_workerTurn (k := 1) hm) hl s.worker.toGo_le
  rw [hp, Worker.toGo_parked] at hthree
  exact absurd hthree (by decide)

end Retired

/-! ## Closing -/

/-- What closes a reporter leaves its worker where it stands and sends nothing, and afterwards no
worker comes any more. -/
theorem retired_of_closes (hs : s.Reachable r) (hopen : s.closed = false) {e : Event}
    (he : e.closes = true) :
    (s.step r e).Retired r ∧ (s.step r e).worker = s.worker
      ∧ (s.step r e).journal.handovers = s.journal.handovers := by
  have hclosed : (s.step r e).closed = true := by rw [closed_step, he, Bool.or_true]
  have hboth : (s.step r e).latch = s.releaseLatch.latch ∧ (s.step r e).worker = s.worker
      ∧ (s.step r e).journal.handovers = s.journal.handovers := by
    cases e with
    | close id =>
      rcases close_cases r s id with ⟨hc, -⟩ | ⟨-, notices, hs⟩ | ⟨-, hs⟩
      · exact absurd (hopen.symm.trans hc) Bool.false_ne_true
      · rw [step, hs, endClose_eq]
        exact ⟨rfl, rfl, rfl⟩
      · rw [step, hs]
        exact ⟨rfl, rfl, rfl⟩
    | drop =>
      rw [step, drop]
      split
      · exact ⟨rfl, rfl, rfl⟩
      · exact ⟨rfl, rfl, rfl⟩
    | _ => cases he
  obtain ⟨hlatch, hworker, hhandovers⟩ := hboth
  exact ⟨⟨hs.step e, hclosed, by rw [hlatch]; exact latch_releaseLatch s⟩, hworker, hhandovers⟩

/-! ## After a close -/

/-- The call `id` has closed the reporter: it waits and has not returned, or it has left the queue
empty. -/
structure ClosedBy (id : Nat) (s : State) : Prop where
  isClosed : s.closed = true
  waits : s.closings ≠ [] → (∃ deadline, s.closings = [⟨id, deadline⟩])
    ∧ ∀ ret ∈ s.returns, ret.result = .closed → ret.id ≠ id
  empty : s.closings = [] → s.intake.queue.slots = []

namespace ClosedBy

variable {id : Nat}

theorem started_close (hopen : s.closed = false) (id : Nat) : (s.close r id).started = true := by
  rcases close_cases r s id with ⟨hc, -⟩ | ⟨-, notices, hclose⟩ | ⟨-, hclose⟩
  · exact absurd (hopen.symm.trans hc) Bool.false_ne_true
  · rw [hclose, endClose_eq]
    rfl
  · rw [hclose]
    rfl

theorem close (hs : s.Reachable r) (hopen : s.closed = false) (id : Nat) :
    (s.close r id).ClosedBy id := by
  obtain ⟨hclosings, hreturns⟩ := hs.no_close_of_open hopen
  rcases close_cases r s id with ⟨hc, -⟩ | ⟨-, notices, hclose⟩ | ⟨-, hclose⟩
  · exact absurd (hopen.symm.trans hc) Bool.false_ne_true
  · rw [hclose, endClose_eq]
    exact ⟨rfl, fun hne => absurd hclosings hne, fun _ => rfl⟩
  · rw [hclose, hclosings]
    exact ⟨rfl, fun _ => ⟨⟨_, rfl⟩, fun ret hmem hret => absurd hret (hreturns ret hmem)⟩,
      fun hnil => absurd hnil (List.cons_ne_nil _ _)⟩

theorem of_serves (h : s.ClosedBy id) (hs : s.Serves s') : s'.ClosedBy id := by
  refine ⟨hs.closed_eq.trans h.isClosed, fun hne => ?_, fun hnil => ?_⟩
  · rw [hs.closings_eq] at hne ⊢
    obtain ⟨hwaits, hreturns⟩ := h.waits hne
    obtain ⟨more, hr, hmore⟩ := hs.returns_eq
    rw [hr]
    refine ⟨hwaits, List.forall_mem_append.2 ⟨hreturns, ?_⟩⟩
    exact fun ret hmem hret => absurd hret (hmore ret hmem)
  · obtain ⟨taken, hq⟩ := hs.queue_eq
    rw [h.empty (hs.closings_eq.symm.trans hnil)] at hq
    exact (List.append_eq_nil_iff.1 hq.symm).2

/-- Whatever happens the close goes on waiting, or it returns for good, unless the same call is made
again while it waits. -/
theorem step (h : s.ClosedBy id) (r : Reporter) {e : Event} (he : e = .close id → s.closings = []) :
    (s.step r e).ClosedBy id ∧ (s.closings = [] → (s.step r e).closings = []) := by
  have of_serves : ∀ {s' : State}, s.Serves s' →
      s'.ClosedBy id ∧ (s.closings = [] → s'.closings = []) :=
    fun hserves => ⟨h.of_serves hserves, fun hnil => hserves.closings_eq.trans hnil⟩
  cases e with
  | report span =>
    obtain ⟨started, latch, worker, hs⟩ := startWorker_frame r s
    rw [State.step, report_of_closed h.isClosed, hs, lose_eq]
    exact ⟨⟨h.isClosed, h.waits, h.empty⟩, fun hnil => hnil⟩
  | flush id' =>
    rw [State.step, flush_of_closed h.isClosed]
    exact of_serves (.finish s id' (by simp))
  | close id' =>
    rw [State.step, close_of_closed h.isClosed]
    refine ⟨⟨h.isClosed, fun hne => ?_, h.empty⟩, fun hnil => hnil⟩
    obtain ⟨hwaits, hreturns⟩ := h.waits hne
    refine ⟨hwaits, List.forall_mem_append.2 ⟨hreturns, ?_⟩⟩
    intro ret hmem _ hid
    rw [List.mem_singleton] at hmem
    rw [hmem] at hid
    exact hne (he (by rw [show id' = id from hid]))
  | drop =>
    rw [State.step, drop_of_closed h.isClosed]
    exact of_serves (.of_eq rfl rfl rfl rfl rfl)
  | workerTurn => exact of_serves (.workerTurn r s)
  | closeTurn id' =>
    rcases closeTurn_cases r s id' with hs | ⟨c, notices, hmem, hid, -, hs⟩
    · rw [State.step, hs]
      exact ⟨h, fun hnil => hnil⟩
    · obtain ⟨⟨deadline, hone⟩, -⟩ := h.waits (List.ne_nil_of_mem hmem)
      have hc : c = ⟨id, deadline⟩ := by
        rw [hone] at hmem
        exact List.mem_singleton.1 hmem
      have hnone : (s.closings.eraseP fun c => c.id = id') = [] := by
        rw [hone, ← hid, hc]
        simp
      rw [State.step, hs, endClose_eq, hnone]
      exact ⟨⟨h.isClosed, fun hne => absurd rfl hne, fun _ => rfl⟩, fun _ => rfl⟩
  | sendEnds sender outcome =>
    cases sender with
    | worker => exact of_serves (.workerSendEnds r s outcome)
    | call id' => exact of_serves (.flushSendEnds r s id' outcome)
  | pass time => exact of_serves (.of_eq rfl rfl rfl rfl rfl)

theorem run (h : s.ClosedBy id) (r : Reporter) (later : List Event)
    (hl : .close id ∈ later → s.closings = []) :
    (s.run r later).ClosedBy id ∧ (s.closings = [] → (s.run r later).closings = []) := by
  induction later generalizing s with
  | nil => exact ⟨h, fun hnil => hnil⟩
  | cons e rest ih =>
    obtain ⟨hstep, hkept⟩ := h.step r (e := e) fun he => hl (he ▸ List.mem_cons_self)
    obtain ⟨hrun, hrest⟩ := ih hstep fun hmem => hkept (hl (List.mem_cons_of_mem _ hmem))
    exact ⟨hrun, fun hnil => hrest (hkept hnil)⟩

/-- Once the close has returned, it does not wait. -/
theorem closings_of_returned (h : s.ClosedBy id) {time : Instant}
    (hmem : ⟨id, time, .closed⟩ ∈ s.returns) : s.closings = [] := by
  apply Classical.byContradiction
  intro hne
  exact (h.waits hne).2 _ hmem rfl rfl

end ClosedBy

theorem started_run (h : s.started = true) (r : Reporter) (later : List Event) :
    (s.run r later).started = true := by
  induction later generalizing s with
  | nil => exact h
  | cons e rest ih => exact ih (started_step h r e)

/-- Closing is final, whether by a close or by the drop of the reporter, and whatever the worker is
at. The worker never begins to wait again, and is past the queue at its next turn if it waits. It
sends at most two further messages, and at most one unless it waited; nobody else sends anything.
Two rounds later it has ended. Once the close has returned, the queue stays empty. A later report
adds one to the spans that were reported and to those that were dropped, and the size of its span to
the bytes; it changes nothing else but the journal. A later flush returns that the reporter is
closed, a later close just returns, and both change nothing. -/
theorem closing_is_final (hs : s.Reachable r) (hopen : s.closed = false) {e : Event}
    (hclosing : (s.step r e).closed = true) :
    (∀ later : List Event,
      let t := (s.step r e).run r later
      (∀ more batch since deadline,
        (t.run r more).worker = .parked batch since deadline →
          t.worker = .parked batch since deadline ∧ .workerTurn ∉ more)
      ∧ (∃ sent, t.journal.handovers = s.journal.handovers ++ sent
        ∧ (∀ h ∈ sent, h.sender = .worker)
        ∧ sent.length ≤ 2
        ∧ ((∀ batch since deadline, s.worker ≠ .parked batch since deadline) → sent.length ≤ 1))
      ∧ ∀ o₁ o₂, (Event.rounds [o₁, o₂]).Sublist later → t.worker.alive = false)
    ∧ ∀ id, e = .close id → ∀ later : List Event,
      let t := (s.step r e).run r later
      (.close id ∉ later → ∀ time, ⟨id, time, .closed⟩ ∈ t.returns →
        ∀ more, (t.run r more).queued = [])
      ∧ (∀ span, t.step r (.report span) =
        { t with
          metrics := { t.metrics with
            spans := t.metrics.spans + 1
            spanBytes := t.metrics.spanBytes + UInt64.ofNat (r.encoder.size span)
            spansDropped := t.metrics.spansDropped + 1 }
          journal := { t.journal with
            reported := t.journal.reported ++ [span]
            lost := t.journal.lost ++ [t.journal.reported.length] } })
      ∧ (∀ other, t.step r (.flush other) = t.finish other (.flushed (some .closed)))
      ∧ ∀ other, t.step r (.close other) = t.finish other .closed := by
  have he : e.closes = true := by
    rw [closed_step, hopen, Bool.false_or] at hclosing
    exact hclosing
  obtain ⟨hretired, hworker, hhandovers⟩ := retired_of_closes hs hopen he
  refine ⟨?_, ?_⟩
  · intro later t
    obtain ⟨hrun, hwinds⟩ := hretired.run later
    obtain ⟨sent, hsent, hall, hlength⟩ := hwinds.sent
    rw [hhandovers] at hsent
    rw [hworker] at hlength
    refine ⟨fun more batch since deadline hp => ⟨?_, fun hturn => ?_⟩,
      ⟨sent, hsent, hall, ?_, fun hnot => ?_⟩, fun _ _ hl => hretired.alive_run hl⟩
    · exact (hrun.run more).2.parked batch since deadline hp
    · exact hrun.not_parked hturn batch since deadline hp
    · have hfour := s.worker.toGo_le
      omega
    · have hthree := Worker.toGo_of_not_parked hnot
      omega
  · rintro id rfl later t
    have hrun : t.Retired r := (hretired.run later).1
    have hstarted : t.started = true := started_run (ClosedBy.started_close hopen id) r later
    refine ⟨fun hnot time hmem more => ?_, fun span => ?_, flush_of_closed hrun.isClosed,
      close_of_closed hrun.isClosed⟩
    · have hclose : t.ClosedBy id :=
        ((ClosedBy.close hs hopen id).run r later fun h => absurd h hnot).1
      have hreturned := hclose.closings_of_returned hmem
      obtain ⟨hmore, hkept⟩ := hclose.run r more fun _ => hreturned
      rw [queued, hmore.empty (hkept hreturned)]
      rfl
    · have hstart : t.startWorker r = t := by rw [startWorker, if_pos hstarted]
      rw [State.step, report_of_closed hrun.isClosed, hstart, lose_eq]
      rfl

/-- A close that comes while the worker waits with one span on board and two more are queued. The
worker sends two messages, and what came between them was too much for the first. -/
theorem patient_closed :
    let span : Span := default
    let s := (initial .patient).run .patient
      [.report span, .workerTurn, .pass 4, .workerTurn, .report span, .report span]
    let t := (s.step .patient (.close 1)).run .patient
      (Event.rounds [.sent, .sent] ++ [.closeTurn 1])
    s.worker.toGo = 4
      ∧ t.journal.handovers.map (fun h => h.message.map Parcel.serial) = [[0], [2]]
      ∧ t.journal.lost = [1]
      ∧ t.worker.alive = false
      ∧ (∀ more, (t.run .patient more).queued = [])
      ∧ t.step .patient (.flush 2) = t.finish 2 (.flushed (some .closed)) := by
  intro span s t
  have hs : s.Reachable .patient := ⟨_, rfl⟩
  have hopen : s.closed = false := by decide +kernel
  have hclosing : (s.step .patient (.close 1)).closed = true := by decide +kernel
  have hreturned : ⟨1, 4, .closed⟩ ∈ t.returns := by decide +kernel
  obtain ⟨hworker, hcalls⟩ := closing_is_final hs hopen hclosing
  obtain ⟨-, -, hends⟩ := hworker (Event.rounds [.sent, .sent] ++ [.closeTurn 1])
  obtain ⟨hempty, -, hflush, -⟩ := hcalls 1 rfl (Event.rounds [.sent, .sent] ++ [.closeTurn 1])
  refine ⟨by decide +kernel, by decide +kernel, by decide +kernel, hends .sent .sent ?_, ?_,
    hflush 2⟩
  · exact List.sublist_append_left _ _
  · exact hempty (by decide) 4 hreturned

end State

end SpanCourier
