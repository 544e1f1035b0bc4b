import SpanCourier.Reporter.Step
import SpanCourier.Transport.Recorder

set_option autoImplicit false

/-! # A reporter on a virtual clock

A world is a running reporter, the far side of its transport and the sends that take time. The
clock stands still while anything can go on (`turn?`) and then moves straight to the next time at
which something is due.
-/

namespace SpanCourier

/-- A send that takes time, and when it ends. -/
structure Due where
  sender : Sender
  message : List Bytes
  time : Instant
deriving DecidableEq

/-- A reporter, the far side of its transport, and the sends under way, oldest first. -/
structure World where
  reporter : Reporter
  state : State
  farSide : FarSide
  dues : List Due := []

namespace State

/-- The worker can go on without waiting. -/
def workerRuns (s : State) : Bool :=
  match s.worker with
  | .ready _ _ => true
  | .parked _ _ deadline => s.intake.signal.waiter = .notified || deadline ≤ s.now
  | _ => false

/-- A close that waits can return. -/
def canReturn (s : State) (c : Closing) : Bool := s.latch = none || c.deadline ≤ s.now

/-- The times at which something in the reporter is due, beyond what can go on now. -/
def timers (s : State) : List Instant :=
  let closings := s.closings.map Closing.deadline
  match s.worker with
  | .parked _ _ deadline => deadline :: closings
  | _ => closings

end State

namespace World

/-- A reporter just built, with the far side of its transport. -/
def initial (reporter : Reporter) (farSide : FarSide) : World :=
  { reporter, farSide, state := .initial reporter }

/-- An event happens. If it hands a message over, the send starts, and if it takes no time it
ends there and then. -/
def fire (w : World) (event : Event) : World :=
  let state := w.state.step w.reporter event
  match state.journal.handovers[w.state.journal.handovers.length]? with
  | none => { w with state }
  | some handover =>
    let message := handover.message.map Parcel.bytes
    -- a send that takes no time ends before anything else happens
    match w.farSide.start state.now message with
    | (farSide, .ended outcome) =>
      { w with
        farSide
        state := state.step w.reporter (.sendEnds handover.sender outcome) }
    | (farSide, .takes time) =>
      { w with farSide, state, dues := w.dues ++ [⟨handover.sender, message, time⟩] }

/-- A send that took time ends. -/
def endDue (w : World) (due : Due) : World :=
  let (farSide, outcome) := w.farSide.finish due.message
  { w with farSide, dues := w.dues.erase due }.fire (.sendEnds due.sender outcome)

/-- One thing that can go on at the present time: a send that ends, a close that returns, or the
worker. -/
def turn? (w : World) : Option World :=
  match w.dues.find? fun due => due.time ≤ w.state.now with
  | some due => some (w.endDue due)
  | none =>
    match w.state.closings.find? w.state.canReturn with
    | some c => some (w.fire (.closeTurn c.id))
    | none => if w.state.workerRuns then some (w.fire .workerTurn) else none

/-- The times at which something is due. -/
def timers (w : World) : List Instant := w.dues.map Due.time ++ w.state.timers

/-- Everything that can still go on at one time, in a rough count of turns. -/
def turns (w : World) : Nat :=
  64 + 8 * (w.state.intake.queue.count + w.state.worker.held.length + w.dues.length
    + w.state.closings.length)

/-- The clock moves forward to a time. -/
def moveTo (w : World) (time : Instant) : World := w.fire (.pass (time - w.state.now))

end World

end SpanCourier
