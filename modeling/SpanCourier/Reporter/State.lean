import SpanCourier.Batch
import SpanCourier.Metrics
import SpanCourier.Queue.Intake
import SpanCourier.Reporter.Basic
import SpanCourier.Reporter.Notice

set_option autoImplicit false

/-! # The state of a running reporter

A reported span becomes a parcel. Parcels wait in the queue; the worker and every running flush
move them into a batch of their own, and from there into a message that is handed to the
transport. The state holds each of these places, the calls that have not returned, and what has
been counted, logged and handed over so far.

The latch tells a close whether a worker may still be at work: somebody holds it shut until the
worker is gone or can no longer come.
-/

namespace SpanCourier

/-- An encoded span on its way, with its place in the order of reports. -/
structure Parcel where
  serial : Nat
  bytes : Bytes
deriving DecidableEq

/-- Who hands a message to the transport: the worker, or a flush that was called. -/
inductive Sender
  | worker
  | call (id : Nat)
deriving DecidableEq, Repr

/-- Who holds the latch shut. -/
inductive Holder
  | reporter
  | worker
deriving DecidableEq, Repr

/-- The worker: where it stands, and the batch that it holds. -/
inductive Worker
  /-- It has not been started. -/
  | absent
  /-- It is about to begin a cycle; `fresh` says that it has not run at all yet. -/
  | ready (fresh : Bool) (batch : Batch Parcel)
  /-- It waits at the queue, since some time and until a deadline. -/
  | parked (batch : Batch Parcel) (since deadline : Instant)
  /-- A message of its is with the transport; `last` says that no cycle follows. -/
  | sending (batch : Batch Parcel) (message : List Parcel) (last : Bool)
  /-- It has ended. -/
  | gone
deriving DecidableEq

namespace Worker

/-- The parcels in the worker's batch. -/
def held : Worker → List (Slot Parcel)
  | ready _ batch => batch.slots
  | parked batch _ _ => batch.slots
  | sending batch _ _ => batch.slots
  | _ => []

/-- The parcels that the worker has with the transport. -/
def pending : Worker → List Parcel
  | sending _ message _ => message
  | _ => []

/-- The worker has been started and has not ended. -/
def alive : Worker → Bool
  | absent => false
  | gone => false
  | _ => true

end Worker

/-- A flush whose message is with the transport. -/
structure Flush where
  id : Nat
  batch : Batch Parcel
  message : List Parcel
deriving DecidableEq

/-- A close that waits for the worker until a deadline. -/
structure Closing where
  id : Nat
  deadline : Instant
deriving DecidableEq, Repr

/-- What a call returns. -/
inductive CallResult
  | flushed (error : Option ReporterError)
  | closed
  | crashed
deriving DecidableEq, Repr

/-- A call that has returned. -/
structure Return where
  id : Nat
  time : Instant
  result : CallResult
deriving DecidableEq, Repr

/-- A message that was handed to the transport. -/
structure Handover where
  sender : Sender
  message : List Parcel
  time : Instant
deriving DecidableEq

/-- A send that has ended. -/
structure Ending where
  sender : Sender
  message : List Parcel
  outcome : Outcome
deriving DecidableEq

/-- What has happened to the reported spans, each list oldest first: the spans in the order of
reports, when the worker took which into its batch, over which its batch crashed, which were counted
as dropped, and every send that started or ended. A span is known by its place in the order of
reports. -/
structure Journal where
  reported : List Span := []
  boarded : List (Nat × Instant) := []
  spilled : List Parcel := []
  lost : List Nat := []
  handovers : List Handover := []
  endings : List Ending := []
deriving DecidableEq

/-- The parcels of the sends that succeeded. -/
def Journal.delivered (journal : Journal) : List Parcel :=
  (journal.endings.filter fun e => e.outcome = .sent).flatMap Ending.message

/-- When the worker took a span into its batch. -/
def Journal.boardedAt? (journal : Journal) (serial : Nat) : Option Instant :=
  journal.boarded.lookup serial

/-- A running reporter. Its clock names the time. -/
structure State where
  now : Instant
  now_le : now ≤ Instant.last
  intake : Intake Parcel
  closed : Bool := false
  started : Bool
  latch : Option Holder
  worker : Worker := .absent
  flushes : List Flush := []
  closings : List Closing := []
  warned : Bool := false
  metrics : Metrics := {}
  notices : List Notice := []
  returns : List Return := []
  journal : Journal := {}

namespace State

/-- A reporter that has just been built. Without background sending the worker counts as started
and nobody holds the latch. -/
def initial (r : Reporter) : State where
  now := 0
  now_le := Nat.zero_le _
  intake := { queue := Queue.new r.queuedMaxSpans r.queuedMaxBytes }
  started := !r.background
  latch := if r.background then some .reporter else none

/-- Counts something. -/
def measure (s : State) (m : Measurement) : State := { s with metrics := s.metrics.record m }

/-- Writes a notice. -/
def note (s : State) (notice : Notice) : State := { s with notices := s.notices ++ [notice] }

/-- Counts spans as dropped, if there are any. -/
def lose (s : State) (serials : List Nat) : State :=
  if serials = [] then s
  else
    { s.measure (.spansDropped serials.length) with
      journal := { s.journal with lost := s.journal.lost ++ serials } }

/-- Reads the gauges of the queue. -/
def gauge (s : State) : State :=
  (s.measure (.queuedSpans s.intake.queue.count)).measure (.queuedBytes s.intake.queue.bytes)

/-- The worker has taken parcels into its batch. -/
def board (s : State) (slots : List (Slot Parcel)) : State :=
  let entries := slots.map fun slot => (slot.item.serial, s.now)
  { s with journal := { s.journal with boarded := s.journal.boarded ++ entries } }

/-- The batch of the worker has crashed over parcels, which are in no place any more. -/
def spill (s : State) (slots : List (Slot Parcel)) : State :=
  { s with journal := { s.journal with spilled := s.journal.spilled ++ slots.map Slot.item } }

/-- A call returns. -/
def finish (s : State) (id : Nat) (result : CallResult) : State :=
  { s with returns := s.returns ++ [⟨id, s.now, result⟩] }

/-- The reporter no longer holds the latch shut. -/
def releaseLatch (s : State) : State :=
  { s with latch := if s.latch = some .reporter then none else s.latch }

end State

end SpanCourier
