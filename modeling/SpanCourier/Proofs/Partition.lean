import SpanCourier.Proofs.Packing

set_option autoImplicit false

/-! # Greedy cuts

Where every front part of what fits fits as well, a list is cut greedily exactly as one would say
it: each part is the longest non-empty front part of what remains that fits (`CutsLongest`). Such a
part can be told by looking at one more item: it fits, and with the next item it does not
(`greedy_append`). So whoever fills parts item by item, and goes on to the next part once an item is
refused, cuts greedily.

Where this is not so, a part is still the longest one all of whose front parts fit (`LongestFront`).
-/

namespace SpanCourier

variable {α : Type} {fits : List α → Bool}

/-- What fits still fits without its end. -/
def FitsShortened (fits : List α → Bool) : Prop :=
  ∀ front rest, fits (front ++ rest) = true → fits front = true

/-- A list stands at its longest front part all of whose non-empty front parts fit. -/
structure LongestFront (fits : List α → Bool) (xs front rest : List α) : Prop where
  append_eq : xs = front ++ rest
  fit : FrontsFit fits front
  longest : ∀ other beyond, xs = other ++ beyond → FrontsFit fits other →
    other.length ≤ front.length

theorem FitsShortened.frontsFit (hf : FitsShortened fits) {xs : List α}
    (h : xs ≠ [] → fits xs = true) : FrontsFit fits xs := by
  rintro front rest rfl hne
  exact hf _ _ (h (List.append_ne_nil_of_left_ne_nil hne _))

/-! ## The longest part -/

theorem FrontsFit.concat {part : List α} {x : α} (h : FrontsFit fits part)
    (hx : fits (part ++ [x]) = true) : FrontsFit fits (part ++ [x]) := by
  intro front rest hsplit hne
  rcases List.eq_nil_or_concat rest with rfl | ⟨init, y, rfl⟩
  · rw [List.append_nil] at hsplit
    rw [← hsplit]
    exact hx
  · rw [List.concat_eq_append, ← List.append_assoc] at hsplit
    exact h front init (List.append_inj_left' hsplit rfl) hne

theorem FrontsFit.extendFit {part : List α} (h : FrontsFit fits part) (xs : List α) :
    FrontsFit fits (extendFit fits part xs) := by
  induction xs generalizing part with
  | nil => exact h
  | cons x rest ih =>
    rw [SpanCourier.extendFit]
    split
    · next hx => exact ih (h.concat hx)
    · exact h

theorem length_le_extendFit (fits : List α → Bool) (part xs : List α) :
    part.length ≤ (extendFit fits part xs).length := by
  induction xs generalizing part with
  | nil => exact Nat.le_refl _
  | cons x xs ih =>
    rw [extendFit]
    split
    · calc part.length ≤ (part ++ [x]).length := by simp
        _ ≤ (extendFit fits (part ++ [x]) xs).length := ih _
    · exact Nat.le_refl _

/-- No front part that fits in this way is longer than the longest one. -/
theorem length_le_longestFit {other : List α} (h : FrontsFit fits other) (rest : List α) :
    other.length ≤ (longestFit fits (other ++ rest)).length := by
  rw [longestFit_append_of_fits h]
  exact length_le_extendFit fits other rest

theorem longestFront_longestFit (fits : List α → Bool) (xs : List α) :
    ∃ rest, LongestFront fits xs (longestFit fits xs) rest := by
  obtain ⟨rest, hrest⟩ := longestFit_append fits xs
  refine ⟨rest, hrest, FrontsFit.extendFit ?_ xs, ?_⟩
  · intro front rest hsplit hne
    exact absurd (List.append_eq_nil_iff.1 hsplit.symm).1 hne
  · rintro other beyond rfl hfit
    exact length_le_longestFit hfit beyond

/-- A front part that fits, and does not with the next item, is the longest. -/
theorem longestFit_append_eq {front rest : List α} (hfront : FrontsFit fits front)
    (hnext : ∀ x more, rest = x :: more → fits (front ++ [x]) = false) :
    longestFit fits (front ++ rest) = front := by
  rw [longestFit_append_of_fits hfront]
  cases rest with
  | nil => rfl
  | cons x more =>
    rw [extendFit, if_neg]
    rw [hnext x more rfl]
    exact Bool.false_ne_true

/-! ## The cut -/

/-- A front part that fits, and does not with the next item, is cut off first. -/
theorem greedy_append (hf : FitsShortened fits) {front rest : List α} (hne : front ≠ [])
    (hfront : fits front = true)
    (hnext : ∀ x more, rest = x :: more → fits (front ++ [x]) = false) :
    greedy fits (front ++ rest) = front :: greedy fits rest := by
  have hlongest := longestFit_append_eq (hf.frontsFit fun _ => hfront) hnext
  have hpart : longestFit fits (front ++ rest) ≠ [] := by
    rw [hlongest]
    exact hne
  rw [greedy_of_ne_nil hpart, hlongest, List.drop_left]

end SpanCourier
