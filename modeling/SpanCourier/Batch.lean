import SpanCourier.Clock
import SpanCourier.Encoding
import SpanCourier.Queue.Basic

set_option autoImplicit false

/-! # The next message in the making

A batch gathers encoded spans while the message that they form still fits. It is due once nothing
more fits, once its oldest span has waited for the timeout, or as soon as it holds anything that
an earlier drain left behind. The deadline starts with the first item of an empty batch and every
drain clears it. An empty batch whose timeout goes beyond the last instant of the clock takes
nothing: it crashes over the first item that fits.
-/

namespace SpanCourier

/-- The items of the next message. -/
structure Batch (α : Type) where
  encoding : Encoding
  maxBytes : Nat
  timeout : Duration
  slots : List (Slot α) := []
  size : Nat := encoding.emptySize
  full : Bool := false
  deadline : Option Instant := none
deriving DecidableEq, Repr

namespace Batch

variable {σ α : Type}

/-- An empty batch. -/
def new (encoding : Encoding) (maxBytes : Nat) (timeout : Duration) : Batch α :=
  { encoding, maxBytes, timeout }

/-- The number of items. -/
def count (b : Batch α) : Nat := b.slots.length

/-- The batch holds nothing. -/
def isEmpty (b : Batch α) : Bool := b.slots.isEmpty

/-- The sizes of the items, oldest first. -/
def sizes (b : Batch α) : List Nat := b.slots.map Slot.size

/-- The time that is left before the batch is due: all of it while the batch is empty, none for
what a drain left behind. -/
def remaining (b : Batch α) (now : Instant) : Duration :=
  match b.deadline with
  | some deadline => deadline - now
  | none => if b.isEmpty then b.timeout else 0

/-- The batch is due. -/
def isReady (b : Batch α) (now : Instant) : Bool :=
  b.full ||
    match b.deadline with
    | some deadline => deadline ≤ now
    | none => !b.isEmpty

/-- The size of the message with one more item. -/
def sizeWith (b : Batch α) (size : Nat) : Nat := b.encoding.combinedSize b.size b.count size

/-- The batch is empty, and the deadline of its first item would be beyond the last instant. -/
def outlasts (b : Batch α) (now : Instant) : Bool :=
  b.isEmpty && Instant.last < now + b.timeout

/-- Takes an item if the message still fits with it. The batch is full when an item did not fit
and when one fits exactly. Without a name for its deadline the batch crashes, and stays as it is. -/
def offer (now : Instant) : Consumer (Batch α) α := fun b item size =>
  let next := b.sizeWith size
  -- a message of exactly the limit still fits, but nothing more does
  if b.maxBytes < next then (.refused, { b with full := true })
  else if b.outlasts now then (.crashed, b)
  else
    (.taken, { b with
      slots := b.slots ++ [⟨item, size⟩]
      size := next
      full := b.full || next = b.maxBytes
      deadline := if b.isEmpty then some (now + b.timeout) else b.deadline })

/-- The batch after a drain that left these items. -/
def leave (b : Batch α) (full : Bool) (slots : List (Slot α)) : Batch α :=
  { b with slots, full, size := b.encoding.listSize (slots.map Slot.size), deadline := none }

/-- Offers the items to a consumer, oldest first, until one is refused or none is left. What is
left has no deadline any more. -/
def drain (offer : Consumer σ α) (b : Batch α) (s : σ) : Batch α × Drained σ :=
  go s b.full 0 b.slots
where
  /-- Goes on with the items that are left, after so many were taken. -/
  go (s : σ) (full : Bool) (count : Nat) : List (Slot α) → Batch α × Drained σ
    | [] => (b.leave full [], ⟨s, count, false⟩)
    | slot :: rest =>
      match offer s slot.item slot.size with
      | (.taken, s) => go s false (count + 1) rest
      | (.refused, s) => (b.leave full (slot :: rest), ⟨s, count, false⟩)
      | (.crashed, s) => ({ b with slots := rest, full }, ⟨s, count, true⟩)

/-- The batch without its items, and how many there were. -/
def clear (b : Batch α) : Batch α × Nat :=
  ({ b with slots := [], size := b.encoding.emptySize, full := false, deadline := none }, b.count)

theorem outlasts_eq_true {b : Batch α} {now : Instant} :
    b.outlasts now = true ↔ b.slots = [] ∧ Instant.last < now + b.timeout := by
  simp [outlasts, isEmpty]

theorem outlasts_of_le {b : Batch α} {now : Instant} (h : now + b.timeout ≤ Instant.last) :
    b.outlasts now = false := by
  rw [← Bool.not_eq_true, outlasts_eq_true]
  exact fun hlast => Nat.not_lt_of_le h hlast.2

@[simp] theorem slots_clear (b : Batch α) : b.clear.1.slots = [] := rfl

@[simp] theorem count_clear (b : Batch α) : b.clear.2 = b.count := rfl

end Batch

end SpanCourier
