import SpanCourier.Proofs.Reporter.Moves

set_option autoImplicit false

/-! # Who holds the latch

In every reachable state a worker is alive exactly if it holds the latch, and as long as the
reporter itself holds the latch no worker has been started. So starting the worker never replaces
another one.
-/

namespace SpanCourier

/-- The worker is alive exactly if it holds the latch, and there is none while the reporter does. -/
structure State.Latched (s : State) : Prop where
  alive_iff : s.worker.alive = true ↔ s.latch = some .worker
  absent : s.latch = some .reporter → s.worker = .absent

namespace State.Latched

variable {r : Reporter} {s s' : State}

theorem initial (r : Reporter) : (State.initial r).Latched := by
  constructor
  · unfold State.initial
    cases r.background <;> simp [Worker.alive]
  · intro _
    rfl

/-- Only the worker and the latch matter. -/
theorem of_eq (h : s.Latched) (hw : s'.worker = s.worker) (hl : s'.latch = s.latch) :
    s'.Latched :=
  ⟨by rw [hw, hl]; exact h.alive_iff, by rw [hw, hl]; exact h.absent⟩

/-- A worker that is alive may go on to another place as long as it stays alive. -/
theorem of_alive (h : s.Latched) (ha : s.worker.alive = true) (ha' : s'.worker.alive = true)
    (hl : s'.latch = s.latch) : s'.Latched := by
  have hlatch : s'.latch = some .worker := by rw [hl]; exact h.alive_iff.1 ha
  constructor
  · simp [ha', hlatch]
  · intro hr
    rw [hlatch] at hr
    cases hr

/-- A worker that is alive holds the latch, so the latch opens as it ends. -/
theorem of_gone (h : s.Latched) (ha : s.worker.alive = true) (hw : s'.worker = .gone)
    (hl : s'.latch = if s.latch = some .worker then none else s.latch) : s'.Latched := by
  have hlatch : s'.latch = none := by rw [hl, if_pos (h.alive_iff.1 ha)]
  constructor
  · simp [hw, hlatch, Worker.alive]
  · intro hr
    rw [hlatch] at hr
    cases hr

theorem endWorker (h : s.Latched) (ha : s.worker.alive = true) (batch : Batch Parcel)
    (crashed : Bool) : (s.endWorker batch crashed).Latched := by
  rw [endWorker_eq]
  exact h.of_gone ha rfl rfl

theorem endCycle (h : s.Latched) (ha : s.worker.alive = true) (batch : Batch Parcel)
    (last : Bool) : (s.endCycle batch last).Latched := by
  cases last with
  | true => exact h.endWorker ha batch false
  | false => exact h.of_alive ha rfl rfl

theorem sendBatch (h : s.Latched) (ha : s.worker.alive = true) (r : Reporter)
    (batch : Batch Parcel) (last : Bool) : (s.sendBatch r batch last).Latched := by
  obtain ⟨s', batch', message, hd, hs⟩ := sendBatch_cases r s batch last
  obtain ⟨metrics, notices, lost, rfl⟩ := dispatch_frame hd
  have h₁ : State.Latched { s with metrics, notices, journal := { s.journal with lost } } :=
    h.of_eq rfl rfl
  rcases hs with ⟨-, hs⟩ | ⟨-, hs⟩
  · rw [hs]
    exact h₁.endCycle ha batch' last
  · rw [hs]
    exact h.of_alive ha rfl rfl

theorem report (h : s.Latched) (r : Reporter) (span : Span) : (s.report r span).Latched := by
  -- the latch passes from the reporter to the worker that it starts
  have h₁ : (s.startWorker r).Latched := by
    rcases startWorker_cases r s with ⟨-, hs⟩ | ⟨-, -, hs⟩ | ⟨-, -, hs⟩
    · rw [hs]
      exact h
    · rw [hs]
      exact h.of_eq rfl rfl
    · rw [hs]
      exact ⟨by simp [Worker.alive], by simp⟩
  rcases report_cases r s span with ⟨-, hr⟩ | ⟨-, intake, -, hr⟩
  · rw [hr, lose_eq]
    exact h₁.of_eq rfl rfl
  · rw [hr]
    exact h₁.of_eq rfl rfl

theorem workerTurn (h : s.Latched) (r : Reporter) : (s.workerTurn r).Latched := by
  rcases workerTurn_cases r s with hs | ⟨fresh, batch, notices, hw, -, -, hs⟩ |
    ⟨batch, batch', taken, left, signal, notices, last, hb, -, -, -, hs⟩ |
    ⟨batch, slot, left, signal, notices, hb, -, hs⟩
  · rw [hs]
    exact h
  · rw [hs]
    exact h.of_alive (by rw [hw]; rfl) rfl rfl
  · have h₁ : ({ s with notices }.drained taken left signal).Latched := h.of_eq rfl rfl
    rw [hs]
    exact h₁.sendBatch (Worker.alive_of_batch? hb) r batch' last
  · rw [hs]
    exact h.of_gone (Worker.alive_of_batch? hb) rfl rfl

theorem endSend (h : s.Latched) (r : Reporter) (sender : Sender) (message : List Parcel)
    (outcome : Outcome) : (s.endSend r sender message outcome).Latched := by
  obtain ⟨metrics, notices, warned, endings, lost, hs⟩ := endSend_frame r s sender message outcome
  rw [hs]
  exact h.of_eq rfl rfl

theorem workerSendEnds (h : s.Latched) (r : Reporter) (outcome : Outcome) :
    (s.workerSendEnds r outcome).Latched := by
  rcases workerSendEnds_cases r s outcome with hs | ⟨batch, message, last, hw, hs⟩
  · rw [hs]
    exact h
  · have h₁ := h.endSend r .worker message outcome
    have ha : (s.endSend r .worker message outcome).worker.alive = true := by
      obtain ⟨_, _, _, _, _, he⟩ := endSend_frame r s .worker message outcome
      rw [he, hw]
      rfl
    rcases hs with ⟨-, hs⟩ | ⟨notices, crashed, hs⟩
    · rw [hs]
      exact h₁.endCycle ha batch last
    · have h₂ : State.Latched { s.endSend r .worker message outcome with notices } :=
        h₁.of_eq rfl rfl
      rw [hs]
      exact h₂.endWorker ha batch crashed

theorem flush (h : s.Latched) (r : Reporter) (id : Nat) : (s.flush r id).Latched := by
  rcases flush_cases r s id with ⟨-, hs⟩ | ⟨-, batch, left, signal, s', batch', message, -, hd, hs⟩
  · rw [hs]
    exact h.of_eq rfl rfl
  · obtain ⟨metrics, notices, lost, rfl⟩ := dispatch_frame hd
    rcases hs with ⟨-, hs⟩ | ⟨-, hs⟩
    · rw [hs, endFlush_eq]
      exact h.of_eq rfl rfl
    · rw [hs]
      exact h.of_eq rfl rfl

theorem flushSendEnds (h : s.Latched) (r : Reporter) (id : Nat) (outcome : Outcome) :
    (s.flushSendEnds r id outcome).Latched := by
  rcases flushSendEnds_cases r s id outcome with hs | ⟨f, before, after, s', -, -, rfl, hs⟩
  · rw [hs]
    exact h
  · have h₁ : State.Latched { s with flushes := before ++ after } := h.of_eq rfl rfl
    have h₂ := h₁.endSend r (.call id) f.message outcome
    rcases hs with ⟨-, hs⟩ | ⟨-, error, hs⟩
    · rw [hs]
      exact h₂.of_eq rfl rfl
    · rw [hs, endFlush_eq]
      exact h₂.of_eq rfl rfl

theorem releaseLatch (h : s.Latched) : s.releaseLatch.Latched := by
  by_cases hr : s.latch = some .reporter
  · -- nobody is left to hold the latch: there is no worker yet, and none will be started
    have hw := h.absent hr
    constructor
    · simp [State.releaseLatch, hr, hw, Worker.alive]
    · simp [State.releaseLatch, hr]
  · exact h.of_eq rfl (by simp [State.releaseLatch, hr])

theorem endClose (h : s.Latched) (id : Nat) : (s.endClose id).Latched := by
  rw [endClose_eq]
  exact h.of_eq rfl rfl

theorem close (h : s.Latched) (r : Reporter) (id : Nat) : (s.close r id).Latched := by
  have h₁ : s.shut.Latched := h.releaseLatch.of_eq rfl rfl
  rcases close_cases r s id with ⟨-, hs⟩ | ⟨-, notices, hs⟩ | ⟨-, hs⟩
  · rw [hs]
    exact h.of_eq rfl rfl
  · have h₂ : State.Latched { s.shut with notices } := h₁.of_eq rfl rfl
    rw [hs]
    exact h₂.endClose id
  · rw [hs]
    exact h₁.of_eq rfl rfl

theorem closeTurn (h : s.Latched) (r : Reporter) (id : Nat) : (s.closeTurn r id).Latched := by
  rcases closeTurn_cases r s id with hs | ⟨c, notices, -, -, -, hs⟩
  · rw [hs]
    exact h
  · have h₁ : State.Latched { s with notices } := h.of_eq rfl rfl
    rw [hs]
    exact (h₁.endClose id).of_eq rfl rfl

theorem drop (h : s.Latched) : s.drop.Latched := by
  rw [State.drop]
  split
  · exact h.releaseLatch
  · exact h.releaseLatch.of_eq rfl rfl

/-- Every event keeps the latch with the worker. -/
theorem step (h : s.Latched) (r : Reporter) (e : Event) : (s.step r e).Latched := by
  cases e with
  | report span => exact h.report r span
  | flush id => exact h.flush r id
  | close id => exact h.close r id
  | drop => exact h.drop
  | workerTurn => exact h.workerTurn r
  | closeTurn id => exact h.closeTurn r id
  | sendEnds sender outcome =>
    cases sender with
    | worker => exact h.workerSendEnds r outcome
    | call id => exact h.flushSendEnds r id outcome
  | pass time => exact h.of_eq rfl rfl

end State.Latched

/-- In every reachable state the worker is alive exactly if it holds the latch. -/
theorem State.Reachable.latched {r : Reporter} {s : State} (h : s.Reachable r) : s.Latched :=
  h.induction (.initial r) fun _ e hs => hs.step r e

namespace State

theorem latch_releaseLatch (s : State) : s.releaseLatch.latch ≠ some .reporter := by
  unfold releaseLatch
  by_cases h : s.latch = some .reporter
  · simp [h]
  · simp [h]

/-- Once the reporter has let go of the latch, it is open exactly if no worker is alive. -/
theorem Latched.latch_eq_none_iff {s : State} (h : s.Latched) (hr : s.latch ≠ some .reporter) :
    s.latch = none ↔ s.worker.alive = false := by
  rcases hl : s.latch with _ | holder
  · simpa [hl] using h.alive_iff
  · cases holder with
    | worker => simpa [hl] using h.alive_iff
    | reporter => exact absurd hl hr

/-! ## The start of the worker -/

/-- An event starts a worker: it is a report, none has been started, and the reporter has the latch
to give away. -/
def hires (s : State) : Event → Bool
  | .report _ => !s.started && decide (s.latch = some .reporter)
  | _ => false

/-- How many workers a row of events starts. -/
def hired (r : Reporter) (s : State) : List Event → Nat
  | [] => 0
  | e :: rest => (if s.hires e then 1 else 0) + hired r (s.step r e) rest

theorem worker_report (r : Reporter) (s : State) (span : Span) :
    (s.report r span).worker = (s.startWorker r).worker := by
  rcases report_cases r s span with ⟨-, hr⟩ | ⟨-, intake, -, hr⟩
  · rw [hr, lose_eq]
    rfl
  · rw [hr]
    rfl

/-- A turn leaves the worker where it is, or it is alive and gets somewhere. -/
theorem worker_workerTurn (r : Reporter) (s : State) :
    (s.workerTurn r).worker = s.worker
      ∨ (s.worker.alive = true ∧ (s.workerTurn r).worker ≠ .absent) := by
  rcases workerTurn_cases r s with hs | ⟨fresh, batch, notices, hw, -, -, hs⟩ |
    ⟨batch, batch', taken, left, signal, notices, last, hb, -, -, -, hs⟩ |
    ⟨batch, slot, left, signal, notices, hb, -, hs⟩
  · exact .inl (by rw [hs])
  · refine .inr ⟨by rw [hw]; rfl, ?_⟩
    rw [hs]
    simp
  · refine .inr ⟨Worker.alive_of_batch? hb, ?_⟩
    obtain ⟨s', batch₁, message, hd, hsend⟩ :=
      sendBatch_cases r (State.drained { s with notices } taken left signal) batch' last
    rw [hs]
    rcases hsend with ⟨-, hsend⟩ | ⟨-, hsend⟩
    · rw [hsend]
      cases last with
      | true => simp [endCycle, endWorker]
      | false => simp [endCycle]
    · rw [hsend]
      simp
  · refine .inr ⟨Worker.alive_of_batch? hb, ?_⟩
    rw [hs]
    simp

/-- Nor does the end of a send do anything but bring a worker that is alive to its next cycle or to
its end. -/
theorem worker_workerSendEnds (r : Reporter) (s : State) (outcome : Outcome) :
    (s.workerSendEnds r outcome).worker = s.worker
      ∨ (s.worker.alive = true ∧ (s.workerSendEnds r outcome).worker ≠ .absent) := by
  rcases workerSendEnds_cases r s outcome with hs | ⟨batch, message, last, hw, hs⟩
  · exact .inl (by rw [hs])
  · refine .inr ⟨by rw [hw]; rfl, ?_⟩
    rcases hs with ⟨-, hs⟩ | ⟨notices, crashed, hs⟩
    · rw [hs]
      cases last with
      | true => simp [endCycle, endWorker]
      | false => simp [endCycle]
    · rw [hs]
      simp [endWorker]

/-- What an event does to the worker: it starts one; or it leaves the worker where it is; or the
worker is alive, and goes on or ends. -/
theorem worker_step (r : Reporter) (s : State) (e : Event) :
    (s.hires e = true
        ∧ (s.step r e).worker =
          .ready true (.new r.encoder.encoding r.messageMaxBytes r.messageTimeout))
      ∨ (s.hires e = false
        ∧ ((s.step r e).worker = s.worker
          ∨ (s.worker.alive = true ∧ (s.step r e).worker ≠ .absent))) := by
  cases e with
  | report span =>
    rw [step, worker_report]
    rcases startWorker_cases r s with ⟨hs, he⟩ | ⟨hs, hl, he⟩ | ⟨hs, hl, he⟩
    · exact .inr ⟨by simp [hires, hs], .inl (by rw [he])⟩
    · exact .inr ⟨by simp [hires, hl], .inl (by rw [he])⟩
    · exact .inl ⟨by simp [hires, hs, hl], by rw [he]⟩
  | flush id =>
    obtain ⟨_, _, _, _, _, _, hs⟩ := flush_frame r s id
    exact .inr ⟨rfl, .inl (by rw [step, hs])⟩
  | close id =>
    refine .inr ⟨rfl, .inl ?_⟩
    rcases close_cases r s id with ⟨-, hs⟩ | ⟨-, notices, hs⟩ | ⟨-, hs⟩
    · rw [step, hs]
      rfl
    · rw [step, hs, endClose_eq]
      rfl
    · rw [step, hs]
      rfl
  | drop =>
    refine .inr ⟨rfl, .inl ?_⟩
    rw [step, drop]
    split
    · rfl
    · rfl
  | workerTurn => exact .inr ⟨rfl, worker_workerTurn r s⟩
  | closeTurn id =>
    refine .inr ⟨rfl, .inl ?_⟩
    rcases closeTurn_cases r s id with hs | ⟨c, notices, -, -, -, hs⟩
    · rw [step, hs]
    · rw [step, hs, endClose_eq]
  | sendEnds sender outcome =>
    cases sender with
    | worker => exact .inr ⟨rfl, worker_workerSendEnds r s outcome⟩
    | call id =>
      obtain ⟨_, _, _, _, _, _, _, hs⟩ := flushSendEnds_frame r s id outcome
      exact .inr ⟨rfl, .inl (by rw [step, hs])⟩
  | pass time => exact .inr ⟨rfl, .inl rfl⟩

end State

end SpanCourier
