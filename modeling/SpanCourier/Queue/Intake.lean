import SpanCourier.Clock
import SpanCourier.Queue.Basic
import SpanCourier.Queue.Signal

set_option autoImplicit false

/-! # The intake: a queue one can wait at

A queue together with its signal. A drain that finds items, has no time to wait or takes a stored
permit is over at once. Otherwise it waits, until it is notified or its time is up: notified, it
drains what there is then; out of time, it takes nothing.
-/

namespace SpanCourier

/-- A queue and the signal of its arrivals. -/
structure Intake (α : Type) where
  queue : Queue α
  signal : Signal := {}
deriving DecidableEq, Repr

/-- How a drain begins: it is over at once, or it waits until some time at the latest. -/
inductive Opening (σ α : Type)
  | over (intake : Intake α) (drained : Drained σ)
  | waits (intake : Intake α) (deadline : Instant)

namespace Intake

variable {σ α : Type}

/-- The intake with one more item, which is signalled, if the queue admits it. -/
def offer? (i : Intake α) (item : α) (size : Nat) : Option (Intake α) :=
  (i.queue.offer? item size).map fun queue => { queue, signal := i.signal.notify }

/-- Signals without an item. -/
def wake (i : Intake α) : Intake α := { i with signal := i.signal.notify }

/-- The intake without its items, and how many there were. -/
def clear (i : Intake α) : Intake α × Nat := ({ i with queue := i.queue.clear.1 }, i.queue.clear.2)

/-- Drains what there is and leaves the signal alone. -/
def tryDrain (offer : Consumer σ α) (i : Intake α) (s : σ) : Intake α × Drained σ :=
  let (queue, drained) := i.queue.drain offer s
  ({ i with queue }, drained)

/-- Drains what there is without waiting, and takes the permit. -/
def drainNow (offer : Consumer σ α) (i : Intake α) (s : σ) : Intake α × Drained σ :=
  { i with signal := i.signal.takePermit }.tryDrain offer s

/-- Begins a drain that may wait for so long. -/
def beginDrain (offer : Consumer σ α) (now : Instant) (timeout : Duration) (i : Intake α)
    (s : σ) : Opening σ α :=
  if i.queue.isEmpty ∧ timeout ≠ 0 ∧ i.signal.permit = false then
    .waits { i with signal := i.signal.await } (now + timeout)
  else
    let (i, drained) := i.drainNow offer s
    .over i drained

/-- Goes on with a drain that waits until `deadline`, if it may: it has been notified, or its
time is up. -/
def resumeDrain? (offer : Consumer σ α) (now deadline : Instant) (i : Intake α) (s : σ) :
    Option (Intake α × Drained σ) :=
  if i.signal.waiter = .notified then
    some ({ i with signal := i.signal.leave }.tryDrain offer s)
  else if deadline ≤ now then
    some ({ i with signal := i.signal.leave }, ⟨s, 0, false⟩)
  else none

theorem offer?_eq_some {i i' : Intake α} {item : α} {size : Nat}
    (h : i.offer? item size = some i') :
    i'.queue.slots = i.queue.slots ++ [⟨item, size⟩] ∧ i'.signal = i.signal.notify := by
  obtain ⟨q, hq, rfl⟩ := Option.map_eq_some_iff.1 h
  exact ⟨by rw [Queue.offer?_eq_some hq], rfl⟩

end Intake

end SpanCourier
