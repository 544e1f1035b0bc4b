import SpanCourier.Text.Hex
import SpanCourier.Text.Split

set_option autoImplicit false

/-! # IPv6 addresses

Eight groups of one to four hexadecimal digits between colons. A doubled colon, at most one,
stands for as many zero groups as are missing, at least one.
-/

namespace SpanCourier

/-- The eight groups of an IPv6 address, in written order. -/
structure IPv6 where
  groups : List UInt16
  length_eq : groups.length = 8
deriving DecidableEq

namespace IPv6

/-- The bytes of an address, the high byte of each group first. -/
def bytes (address : IPv6) : List UInt8 :=
  address.groups.flatMap fun g => [UInt8.ofNat (g.toNat / 256), UInt8.ofNat (g.toNat % 256)]

/-- Reads one group. -/
def group? (digits : List Char) : Option UInt16 :=
  if !digits.isEmpty && digits.length ≤ 4 && digits.all isHex then
    some (UInt16.ofNat (natOfHex digits))
  else none

/-- Reads groups between single colons; no text is no groups. -/
def groups? (text : List Char) : Option (List UInt16) :=
  if text.isEmpty then some [] else (fields ':' text).mapM group?

/-- Fills the place of a doubled colon with zero groups, at least one. -/
def fill? (front back : List UInt16) : Option IPv6 :=
  if h : front.length + back.length ≤ 7 then
    some ⟨front ++ List.replicate (8 - (front.length + back.length)) 0 ++ back, by
      simp only [List.length_append, List.length_replicate]; omega⟩
  else none

/-- Reads an address. -/
def ofChars? (text : List Char) : Option IPv6 :=
  match cutPair ':' text with
  | none => do
    let groups ← groups? text
    if h : groups.length = 8 then some ⟨groups, h⟩ else none
  | some (front, back) => do
    if (cutPair ':' back).isSome then none
    else fill? (← groups? front) (← groups? back)

theorem length_bytes (address : IPv6) : address.bytes.length = 16 := by
  have : ∀ l : List UInt16, (l.flatMap fun g =>
      [UInt8.ofNat (g.toNat / 256), UInt8.ofNat (g.toNat % 256)]).length = 2 * l.length := by
    intro l
    induction l with
    | nil => rfl
    | cons g rest ih => simp [ih]; omega
  rw [bytes, this, address.length_eq]

example : (ofChars? "1::ab:F".toList).map groups = some [1, 0, 0, 0, 0, 0, 0xab, 0xf] := by
  decide +kernel
example : ofChars? ":::".toList = none := by decide +kernel
example : ofChars? "1:2:3:4:5:6:7::8".toList = none := by decide +kernel

end IPv6

end SpanCourier
