import SpanCourier.Clock
import SpanCourier.Transport.Basic

set_option autoImplicit false

/-! # A transport that records

The far side of a transport, kept in memory: the messages that arrived, failures that are set up
for the next sends, a delay that every send takes, and sends that crash. Whether it is closed is
looked at when a send starts; a failure that is set up strikes when a send would end.
-/

namespace SpanCourier

/-- What has arrived, and what is to happen to the next sends. -/
structure Recorder where
  delay : Duration := 0
  crashes : List Nat := []
  closed : Bool := false
  failures : List TransportError := []
  messages : List (List Bytes) := []
  sends : Nat := 0
deriving DecidableEq

/-- How a send goes on after its start: it has ended, or it ends at some time. -/
inductive Progress
  | ended (outcome : Outcome)
  | takes (deadline : Instant)
deriving DecidableEq, Repr

namespace Recorder

/-- The longest that a send is delayed: thirty years of 365 days. -/
def longestDelay : Duration := 30 * 365 * 86400 * Duration.second

/-- A send ends: with the next failure that is set up, or with the arrival of its message. -/
def finish (r : Recorder) (message : List Bytes) : Recorder × Outcome :=
  match r.failures with
  | error :: failures => ({ r with failures }, .failed error)
  | [] => ({ r with messages := r.messages ++ [message] }, .sent)

/-- A send starts. -/
def start (r : Recorder) (now : Instant) (message : List Bytes) : Recorder × Progress :=
  let r := { r with sends := r.sends + 1 }
  -- a crash comes before anything is looked at
  if r.sends ∈ r.crashes then (r, .ended .crashed)
  else if r.closed then (r, .ended (.failed .closed))
  else if r.delay ≠ 0 then (r, .takes (now + min r.delay longestDelay))
  else
    let (r, outcome) := r.finish message
    (r, .ended outcome)

/-- Sets up a failure after those already set up. -/
def failNext (r : Recorder) (error : TransportError) : Recorder :=
  { r with failures := r.failures ++ [error] }

/-- No later send arrives. -/
def close (r : Recorder) : Recorder := { r with closed := true }

/-- The number of spans that have arrived. -/
def spanCount (r : Recorder) : Nat := r.messages.flatten.length

end Recorder

/-- The far side of a transport: nothing that keeps what it is sent, or a recorder. -/
inductive FarSide
  | void
  | recorder (recorder : Recorder)
deriving DecidableEq

namespace FarSide

/-- A send starts. -/
def start : FarSide → Instant → List Bytes → FarSide × Progress
  | void, _, _ => (void, .ended .sent)
  | recorder r, now, message =>
    let (r, progress) := r.start now message
    (recorder r, progress)

/-- A send that took time ends. -/
def finish : FarSide → List Bytes → FarSide × Outcome
  | void, _ => (void, .sent)
  | recorder r, message =>
    let (r, outcome) := r.finish message
    (recorder r, outcome)

/-- A send from its start to its end, with nothing else going on: the time of its end and how it
ended. -/
def carry (side : FarSide) (now : Instant) (message : List Bytes) : FarSide × Instant × Outcome :=
  match side.start now message with
  | (side, .ended outcome) => (side, now, outcome)
  | (side, .takes deadline) =>
    let (side, outcome) := side.finish message
    (side, deadline, outcome)

/-- Sets up a failure. -/
def failNext : FarSide → TransportError → FarSide
  | void, _ => void
  | recorder r, error => recorder (r.failNext error)

/-- No later send arrives. -/
def close : FarSide → FarSide
  | void => void
  | recorder r => recorder r.close

/-- The recorder, if there is one. -/
def recorder? : FarSide → Option Recorder
  | void => none
  | recorder r => some r

/-- How long a send takes. -/
def delay : FarSide → Duration
  | void => 0
  | recorder r => r.delay

end FarSide

end SpanCourier
