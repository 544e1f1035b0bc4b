import SpanCourier.Batch

set_option autoImplicit false

/-! # Drains

A drain offers items in order until one is refused or none is left. Queue and batch both drain in
this way, so what a drain does is said once, by `Consumer.Drains`, and each of the two is shown to
do that (`Queue.drain_eq`, `Batch.drain_eq`). What a certain consumer makes of a drain is then an
induction over `Consumer.Drains`.
-/

namespace SpanCourier

variable {σ α : Type}

/-! ## The course of a drain -/

/-- Offered `slots` in order, a consumer takes the items `taken` and `left` stays behind; it ends
in its second state. A crash stands between the two and loses one item. -/
inductive Consumer.Drains (offer : Consumer σ α) :
    σ → List (Slot α) → List (Slot α) → List (Slot α) → σ → Bool → Prop
  | done (s : σ) : Drains offer s [] [] [] s false
  | taken {s s₁ s₂ : σ} {slot : Slot α} {rest taken left : List (Slot α)} {crashed : Bool}
      (h : offer s slot.item slot.size = (.taken, s₁))
      (hrest : Drains offer s₁ rest taken left s₂ crashed) :
      Drains offer s (slot :: rest) (slot :: taken) left s₂ crashed
  | refused {s s₁ : σ} {slot : Slot α} {rest : List (Slot α)}
      (h : offer s slot.item slot.size = (.refused, s₁)) :
      Drains offer s (slot :: rest) [] (slot :: rest) s₁ false
  | crashed {s s₁ : σ} {slot : Slot α} {rest : List (Slot α)}
      (h : offer s slot.item slot.size = (.crashed, s₁)) :
      Drains offer s (slot :: rest) [] rest s₁ true

namespace Consumer.Drains

variable {offer : Consumer σ α} {s s' : σ} {slots taken left : List (Slot α)} {crashed : Bool}

/-- A consumer that never crashes does not crash during a drain. -/
theorem not_crashed (hs : offer.Steady) (h : offer.Drains s slots taken left s' crashed) :
    crashed = false := by
  induction h with
  | done => rfl
  | taken _ _ ih => exact ih
  | refused => rfl
  | crashed h => exact absurd (by rw [h]) (hs _ _ _)

/-- Without a crash nothing is lost: the items that were taken stand before those that stay. -/
theorem append_eq (h : offer.Drains s slots taken left s' false) : taken ++ left = slots := by
  generalize hc : false = c at h
  induction h with
  | done => rfl
  | taken _ _ ih => rw [List.cons_append, ih hc]
  | refused => rfl
  | crashed => cases hc

/-- A consumer that took nothing, although there is something, has refused the first item. -/
theorem refused_head (h : offer.Drains s slots [] left s' false) (hne : left ≠ []) :
    ∃ slot rest, slots = slot :: rest ∧ offer s slot.item slot.size = (.refused, s') := by
  cases h with
  | done => exact absurd rfl hne
  | refused h => exact ⟨_, _, rfl, h⟩

end Consumer.Drains

/-! ## Queues -/

namespace Queue

theorem drain_go_eq (offer : Consumer σ α) (q : Queue α) (s : σ) (bytes count : Nat)
    (slots : List (Slot α)) :
    ∃ taken left s' crashed, offer.Drains s slots taken left s' crashed ∧
      drain.go offer q s bytes count slots =
        ({ q with slots := left, bytes := bytes - Slot.total taken },
          ⟨s', count + taken.length, crashed⟩) := by
  induction slots generalizing s bytes count with
  | nil => exact ⟨[], [], s, false, .done s, rfl⟩
  | cons slot rest ih =>
    rw [drain.go]
    match hr : offer s slot.item slot.size with
    | (.taken, s₁) =>
      obtain ⟨taken, left, s', crashed, hd, he⟩ := ih s₁ (bytes - slot.size) (count + 1)
      refine ⟨slot :: taken, left, s', crashed, .taken hr hd, ?_⟩
      have hbytes : bytes - slot.size - Slot.total taken
          = bytes - Slot.total (slot :: taken) := by
        simp only [Slot.total]
        omega
      have hcount : count + 1 + taken.length = count + (slot :: taken).length := by
        rw [List.length_cons]
        omega
      rw [← hbytes, ← hcount]
      exact he
    | (.refused, s₁) => exact ⟨[], slot :: rest, s₁, false, .refused hr, rfl⟩
    | (.crashed, s₁) => exact ⟨[], rest, s₁, true, .crashed hr, rfl⟩

/-- A queue drains its items from the front; its total goes down by what was taken. -/
theorem drain_eq (offer : Consumer σ α) (q : Queue α) (s : σ) :
    ∃ taken left s' crashed, offer.Drains s q.slots taken left s' crashed ∧
      q.drain offer s =
        ({ q with slots := left, bytes := q.bytes - Slot.total taken },
          ⟨s', taken.length, crashed⟩) := by
  obtain ⟨taken, left, s', crashed, hd, he⟩ := drain_go_eq offer q s q.bytes 0 q.slots
  rw [Nat.zero_add] at he
  exact ⟨taken, left, s', crashed, hd, he⟩

/-- A consumer that never crashes leaves behind what it did not take. -/
theorem drain_steady {offer : Consumer σ α} (hs : offer.Steady) (q : Queue α) (s : σ) :
    ∃ taken left s', offer.Drains s q.slots taken left s' false ∧
      q.drain offer s =
        ({ q with slots := left, bytes := q.bytes - Slot.total taken },
          ⟨s', taken.length, false⟩) := by
  obtain ⟨taken, left, s', crashed, hd, he⟩ := drain_eq offer q s
  obtain rfl := hd.not_crashed hs
  exact ⟨taken, left, s', hd, he⟩

end Queue

theorem Slot.total_append (slots more : List (Slot α)) :
    Slot.total (slots ++ more) = Slot.total slots + Slot.total more := by
  induction slots with
  | nil => exact (Nat.zero_add _).symm
  | cons slot rest ih =>
    rw [List.cons_append, Slot.total, Slot.total, ih, Nat.add_assoc]

/-! ## Batches -/

namespace Batch

theorem drain_go_eq (offer : Consumer σ α) (hs : offer.Steady) (b : Batch α) (s : σ)
    (full : Bool) (count : Nat) (slots : List (Slot α)) :
    ∃ taken left s', offer.Drains s slots taken left s' false ∧
      drain.go offer b s full count slots =
        (b.leave (full && taken.isEmpty) left, ⟨s', count + taken.length, false⟩) := by
  induction slots generalizing s full count with
  | nil => exact ⟨[], [], s, .done s, by simp [drain.go]⟩
  | cons slot rest ih =>
    rw [drain.go]
    match hr : offer s slot.item slot.size with
    | (.taken, s₁) =>
      obtain ⟨taken, left, s', hd, he⟩ := ih s₁ false (count + 1)
      refine ⟨slot :: taken, left, s', .taken hr hd, ?_⟩
      have hcount : count + 1 + taken.length = count + (slot :: taken).length := by
        rw [List.length_cons]
        omega
      rw [List.isEmpty_cons, Bool.and_false, ← hcount]
      exact he
    | (.refused, s₁) => exact ⟨[], slot :: rest, s₁, .refused hr, by simp⟩
    | (.crashed, s₁) => exact absurd (by rw [hr]) (hs s slot.item slot.size)

/-- A batch drains its items from the front. It stays full only if nothing was taken. -/
theorem drain_eq (offer : Consumer σ α) (hs : offer.Steady) (b : Batch α) (s : σ) :
    ∃ taken left s', offer.Drains s b.slots taken left s' false ∧
      b.drain offer s =
        (b.leave (b.full && taken.isEmpty) left, ⟨s', taken.length, false⟩) := by
  obtain ⟨taken, left, s', hd, he⟩ := drain_go_eq offer hs b s b.full 0 b.slots
  rw [Nat.zero_add] at he
  exact ⟨taken, left, s', hd, he⟩

end Batch

end SpanCourier
