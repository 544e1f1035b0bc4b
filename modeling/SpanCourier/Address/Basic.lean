import SpanCourier.Address.IPv4
import SpanCourier.Address.IPv6

set_option autoImplicit false

/-! # Network addresses

A text with a dot is an IPv4 address, alone or after the prefix `::ffff:` in any letter case. A
text without one is an IPv6 address.
-/

namespace SpanCourier

/-- A network address. -/
inductive Address
  | v4 (address : IPv4)
  | v6 (address : IPv6)
deriving DecidableEq

namespace Address

/-- The bytes of an address, in network order: four or sixteen. -/
def bytes : Address → List UInt8
  | v4 address => address.octets
  | v6 address => address.bytes

/-- What may stand before an IPv4 address written as an IPv6 address. -/
def mappedHead : List Char := "::ffff:".toList

/-- The part of a dotted text that is an IPv4 address: all of it, or what follows the mapped
prefix, which ends at the last colon. -/
def dotted? (text : List Char) : Option (List Char) :=
  match splitLast ':' text with
  | none => some text
  | some (front, back) => if front.map Char.toLower = mappedHead then some back else none

/-- Reads an address. -/
def ofChars? (text : List Char) : Option Address :=
  if text.contains '.' then (dotted? text).bind fun rest => (IPv4.ofChars? rest).map v4
  else (IPv6.ofChars? text).map v6

theorem bytes_ne_nil (address : Address) : address.bytes ≠ [] := by
  intro h
  have := congrArg List.length h
  cases address with
  | v4 a => simp [bytes, a.length_eq] at this
  | v6 a => simp [bytes, a.length_bytes] at this

example : (ofChars? "::FFff:1.2.3.4".toList).map bytes = some [1, 2, 3, 4] := by decide +kernel
example : ofChars? "1::ffff:1.2.3.4".toList = none := by decide +kernel
example : ofChars? [] = none := by decide +kernel

end Address

end SpanCourier
