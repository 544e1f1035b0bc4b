set_option autoImplicit false

/-! # IPv4 addresses

Four octets in decimal, one to three digits each, between dots. The reader goes over the text
once and holds the octets that are done, the value of the octet at hand and how many digits it
has.
-/

namespace SpanCourier

/-- The four octets of an IPv4 address, in written order. -/
structure IPv4 where
  octets : List UInt8
  length_eq : octets.length = 4
deriving DecidableEq

namespace IPv4

/-- Where the reader stands within a text. -/
structure Scan where
  octets : List UInt8 := []
  value : Nat := 0
  digits : Nat := 0

/-- A digit joins the octet at hand, unless it would be the fourth or take it past 255. -/
def Scan.digit? (s : Scan) (d : Nat) : Option Scan :=
  if s.digits = 3 ∨ 255 < s.value * 10 + d then none
  else some { s with value := s.value * 10 + d, digits := s.digits + 1 }

/-- A dot ends an octet that has a digit and is not the fourth. -/
def Scan.dot? (s : Scan) : Option Scan :=
  if s.digits = 0 ∨ s.octets.length = 3 then none
  else some { octets := s.octets ++ [UInt8.ofNat s.value] }

/-- The reader takes one character. -/
def Scan.step? (s : Scan) (c : Char) : Option Scan :=
  if c = '.' then s.dot?
  else if '0' ≤ c ∧ c ≤ '9' then s.digit? (c.toNat - '0'.toNat)
  else none

/-- The end of the text ends the fourth octet. -/
def Scan.finish? (s : Scan) : Option IPv4 :=
  if h : s.digits ≠ 0 ∧ s.octets.length = 3 then
    some ⟨s.octets ++ [UInt8.ofNat s.value], by simp [h.2]⟩
  else none

/-- Reads an address in dotted decimal. -/
def ofChars? (text : List Char) : Option IPv4 := do
  (← text.foldlM Scan.step? {}).finish?

example : (ofChars? "10.020.0.255".toList).map octets = some [10, 20, 0, 255] := by
  decide +kernel
example : ofChars? "1.2.3.256".toList = none := by decide +kernel
example : ofChars? "1.2.3.".toList = none := by decide +kernel

end IPv4

end SpanCourier
