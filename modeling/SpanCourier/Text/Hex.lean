set_option autoImplicit false

/-! # Hexadecimal text

Digits are read in either case and written in lower case. A byte is two digits, the high one
first.
-/

namespace SpanCourier

/-- The value of a hexadecimal digit, in either case. -/
def hexValue? (c : Char) : Option Nat :=
  if '0' ≤ c ∧ c ≤ '9' then some (c.toNat - '0'.toNat)
  else if 'a' ≤ c ∧ c ≤ 'f' then some (c.toNat - 'a'.toNat + 10)
  else if 'A' ≤ c ∧ c ≤ 'F' then some (c.toNat - 'A'.toNat + 10)
  else none

/-- A character is a hexadecimal digit. -/
def isHex (c : Char) : Bool := (hexValue? c).isSome

/-- The lower-case digit of a value below sixteen. -/
def hexDigit (n : Nat) : Char :=
  if n < 10 then Char.ofNat ('0'.toNat + n) else Char.ofNat ('a'.toNat + (n - 10))

/-- The two digits of a byte. -/
def hexOfByte (b : UInt8) : List Char := [hexDigit (b.toNat / 16), hexDigit (b.toNat % 16)]

/-- Bytes as lower-case hexadecimal text. -/
def hexOfBytes (bytes : List UInt8) : String := String.ofList (bytes.flatMap hexOfByte)

/-- Reads digits in pairs, one byte a pair; an odd digit or another character refuses the
whole text. -/
def bytesOfHex? : List Char → Option (List UInt8)
  | [] => some []
  | [_] => none
  | h :: l :: rest => do
    let high ← hexValue? h
    let low ← hexValue? l
    let bytes ← bytesOfHex? rest
    return UInt8.ofNat (16 * high + low) :: bytes

/-- The digits of a natural number, without leading zeros; zero is one digit. -/
def hexOfNat (n : Nat) : List Char := Nat.toDigits 16 n

/-- The number that a row of digits denotes, most significant first; other characters count
as zero. -/
def natOfHex (digits : List Char) : Nat :=
  digits.foldl (fun n c => 16 * n + (hexValue? c).getD 0) 0

end SpanCourier
