set_option autoImplicit false

/-! # The bounded queue

Items wait in a queue, each with its size. The queue is bounded by the number of its items and by
the sum of their sizes, which it keeps as a running total. Items leave at the front, into a
consumer that may take an item, refuse it, or crash over it. A refused item stays at the front; a
crash loses the item and leaves the total as it was.
-/

namespace SpanCourier

/-- The largest 64-bit number. -/
def wordMax : Nat := UInt64.size - 1

/-- An item and its size. -/
structure Slot (α : Type) where
  item : α
  size : Nat
deriving DecidableEq, Repr

/-- The sum of the sizes. -/
def Slot.total {α : Type} : List (Slot α) → Nat
  | [] => 0
  | slot :: rest => slot.size + Slot.total rest

/-- What a consumer does with an item that it is offered. -/
inductive Reply
  | taken
  | refused
  | crashed
deriving DecidableEq, Repr

/-- A consumer with a state: it is offered an item and the item's size. -/
abbrev Consumer (σ α : Type) := σ → α → Nat → Reply × σ

/-- The consumer never crashes. -/
def Consumer.Steady {σ α : Type} (offer : Consumer σ α) : Prop :=
  ∀ s item size, (offer s item size).1 ≠ .crashed

/-- The outcome of offering items to a consumer: its new state, how many items it took, and
whether it crashed. -/
structure Drained (σ : Type) where
  consumer : σ
  count : Nat
  crashed : Bool := false
deriving DecidableEq, Repr

/-- Items in order of arrival, under limits on their number and on the sum of their sizes. -/
structure Queue (α : Type) where
  maxCount : Nat
  maxBytes : Nat
  slots : List (Slot α) := []
  bytes : Nat := 0
deriving DecidableEq, Repr

namespace Queue

variable {σ α : Type}

/-- An empty queue; without a byte limit the total is bounded by its width. -/
def new (maxCount : Nat) (maxBytes : Option Nat) : Queue α :=
  { maxCount, maxBytes := maxBytes.getD wordMax }

/-- The number of items. -/
def count (q : Queue α) : Nat := q.slots.length

/-- The queue holds nothing. -/
def isEmpty (q : Queue α) : Bool := q.slots.isEmpty

/-- The queue with one more item at the end, if both limits and the width of the total still
hold then. -/
def offer? (q : Queue α) (item : α) (size : Nat) : Option (Queue α) :=
  if q.count < q.maxCount ∧ q.bytes + size ≤ wordMax ∧ q.bytes + size ≤ q.maxBytes then
    some { q with slots := q.slots ++ [⟨item, size⟩], bytes := q.bytes + size }
  else none

/-- Offers the items from the front until one is refused or none is left. -/
def drain (offer : Consumer σ α) (q : Queue α) (s : σ) : Queue α × Drained σ :=
  go s q.bytes 0 q.slots
where
  /-- Goes on with the items that are left, after so many were taken. -/
  go (s : σ) (bytes count : Nat) : List (Slot α) → Queue α × Drained σ
    | [] => ({ q with slots := [], bytes }, ⟨s, count, false⟩)
    | slot :: rest =>
      match offer s slot.item slot.size with
      | (.taken, s) => go s (bytes - slot.size) (count + 1) rest
      | (.refused, s) => ({ q with slots := slot :: rest, bytes }, ⟨s, count, false⟩)
      | (.crashed, s) => ({ q with slots := rest, bytes }, ⟨s, count, true⟩)

/-- The queue without its items, and how many there were. -/
def clear (q : Queue α) : Queue α × Nat := ({ q with slots := [], bytes := 0 }, q.count)

@[simp] theorem drain_nil (offer : Consumer σ α) (q : Queue α) (s : σ) (h : q.slots = []) :
    q.drain offer s = (q, ⟨s, 0, false⟩) := by
  obtain ⟨maxCount, maxBytes, slots, bytes⟩ := q
  obtain rfl : slots = [] := h
  rfl

theorem offer?_eq_some {q q' : Queue α} {item : α} {size : Nat}
    (h : q.offer? item size = some q') :
    q' = { q with slots := q.slots ++ [⟨item, size⟩], bytes := q.bytes + size } := by
  rw [offer?] at h
  split at h
  · exact (Option.some.inj h).symm
  · simp at h

@[simp] theorem slots_clear (q : Queue α) : q.clear.1.slots = [] := rfl

@[simp] theorem count_clear (q : Queue α) : q.clear.2 = q.count := rfl

end Queue

end SpanCourier
