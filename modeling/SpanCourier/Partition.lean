set_option autoImplicit false

/-! # Cutting a list into parts that fit

`longestFit` is the longest front part of a list all of whose non-empty front parts fit, and
`greedy` cuts a whole list in this way, part after part.
-/

namespace SpanCourier

variable {α : Type}

/-- Lengthens a part that fits by the items that follow, as long as it still fits. -/
def extendFit (fits : List α → Bool) (part : List α) : List α → List α
  | [] => part
  | x :: rest => if fits (part ++ [x]) then extendFit fits (part ++ [x]) rest else part

/-- The longest front part all of whose non-empty front parts fit. -/
def longestFit (fits : List α → Bool) (xs : List α) : List α := extendFit fits [] xs

/-- A list cut into longest front parts that fit, until it is used up or nothing fits. -/
def greedy (fits : List α → Bool) (xs : List α) : List (List α) :=
  if (longestFit fits xs).isEmpty then []
  else longestFit fits xs :: greedy fits (xs.drop (longestFit fits xs).length)
termination_by xs.length
decreasing_by
  next h =>
    have hne : longestFit fits xs ≠ [] := by simpa using h
    have hxs : xs ≠ [] := by
      rintro rfl
      exact hne rfl
    have := List.length_pos_iff.2 hne
    have := List.length_pos_iff.2 hxs
    simp only [List.length_drop]
    omega

theorem extendFit_append (fits : List α → Bool) (part xs : List α) :
    ∃ rest, part ++ xs = extendFit fits part xs ++ rest := by
  induction xs generalizing part with
  | nil => exact ⟨[], rfl⟩
  | cons x rest ih =>
    rw [extendFit]
    split
    · obtain ⟨tail, htail⟩ := ih (part ++ [x])
      exact ⟨tail, by rw [← htail, List.append_assoc]; rfl⟩
    · exact ⟨x :: rest, rfl⟩

/-- The longest fitting part is a front part. -/
theorem longestFit_append (fits : List α → Bool) (xs : List α) :
    ∃ rest, xs = longestFit fits xs ++ rest :=
  extendFit_append fits [] xs

/-- A part that fits comes off, and the cutting goes on behind it. -/
theorem greedy_of_ne_nil {fits : List α → Bool} {xs : List α} (h : longestFit fits xs ≠ []) :
    greedy fits xs =
      longestFit fits xs :: greedy fits (xs.drop (longestFit fits xs).length) := by
  rw [greedy, if_neg (by simpa using h)]

example : greedy (fun part => part.sum ≤ 5) [3, 2, 4, 1, 1] = [[3, 2], [4, 1], [1]] := by
  decide +kernel

end SpanCourier
