import Mathlib.Data.Nat.Digits.Defs

set_option autoImplicit false

/-! # What decimal text denotes

The value of a decimal digit is its place among the ten digits (`decimalValue_eq`), and a row of
digits denotes a number by their places. A digit more behind a row makes ten times the number and
the value of that digit (`decimalNumber_concat`).
-/

namespace SpanCourier

/-- The decimal digits in the order of their values. -/
def decimalDigits : List Char := "0123456789".toList

/-- The number that a row of digits denotes by their places. -/
def decimalNumber (digits : List Char) : Nat :=
  Nat.ofDigits 10 (digits.reverse.map decimalDigits.idxOf)

@[simp] theorem decimalNumber_nil : decimalNumber [] = 0 := rfl

theorem decimalNumber_concat (digits : List Char) (c : Char) :
    decimalNumber (digits ++ [c]) = decimalNumber digits * 10 + decimalDigits.idxOf c := by
  unfold decimalNumber
  simp only [List.reverse_append, List.reverse_singleton, List.singleton_append, List.map_cons,
    Nat.ofDigits_cons]
  ring

theorem toNat_lt_of_mem_decimalDigits {c : Char} (h : c ∈ decimalDigits) : c.toNat < 128 := by
  have hall : decimalDigits.all (fun d => d.toNat < 128) = true := by decide
  exact of_decide_eq_true (List.all_eq_true.1 hall c h)

/-- The digits are the characters from `0` to `9`. -/
theorem mem_decimalDigits_iff {c : Char} : c ∈ decimalDigits ↔ '0' ≤ c ∧ c ≤ '9' := by
  -- only ASCII characters are digits on either side, and for those it can be decided
  have hall : ∀ m : Fin 128, (Char.ofNat m ∈ decimalDigits ↔
      '0' ≤ Char.ofNat m ∧ Char.ofNat m ≤ '9') := by
    decide +kernel
  by_cases hlt : c.toNat < 128
  · have hc := hall ⟨c.toNat, hlt⟩
    rwa [Char.ofNat_toNat] at hc
  · refine iff_of_false (fun h => hlt (toNat_lt_of_mem_decimalDigits h)) fun h => hlt ?_
    exact Nat.lt_of_le_of_lt (show c.toNat ≤ '9'.toNat from h.2) (by decide)

/-- The value of a digit is its place among the digits. -/
theorem decimalValue_eq {c : Char} (h : c ∈ decimalDigits) :
    c.toNat - '0'.toNat = decimalDigits.idxOf c := by
  have hall : decimalDigits.all (fun d => d.toNat - '0'.toNat = decimalDigits.idxOf d) = true := by
    decide
  exact of_decide_eq_true (List.all_eq_true.1 hall c h)

end SpanCourier
