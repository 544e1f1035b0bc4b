import SpanCourier.Address.Basic
import SpanCourier.Address.InPlace

set_option autoImplicit false

/-! # Reading any address in place

The bytes of a text are those of an IPv4 address if there is a dot among them, alone or behind the
prefix that ends with the last colon, and else those of an IPv6 address. The octets of an IPv4
address are read in one pass, digit by digit, into an array of four. As for IPv6 addresses
(`IPv6.InPlace`), every step that needs a bound asks for it, and one that goes wrong is a slip of
the reader (`Stop`).
-/

namespace SpanCourier

namespace Reading

/-- The place of the last of some bytes that are equal. -/
def findLast (sep : UInt8) : List UInt8 → Option Nat
  | [] => none
  | b :: rest =>
    match findLast sep rest with
    | some place => some (place + 1)
    | none => if b = sep then some 0 else none

/-- Lower case for the byte of a letter `A` to `Z`. -/
def lowerByte (b : UInt8) : UInt8 := if 0x41 ≤ b ∧ b ≤ 0x5A then b + 0x20 else b

end Reading

open Reading

namespace IPv4.InPlace

/-- Where the reader stands: the cells, how many of them are filled, the value of the octet at hand
and how many digits it has. -/
structure Progress where
  cells : List UInt8 := [0, 0, 0, 0]
  filled : Nat := 0
  value : Nat := 0
  digits : Nat := 0

/-- A digit joins the octet at hand. The value has sixteen bits, the number of digits eight. -/
def Progress.digit (p : Progress) (b : UInt8) : Reading Progress :=
  if p.digits = 3 then .error .refused
  else do
    let shifted ← inWord UInt16.size (p.value * 10)
    let digit ← minus b.toNat 0x30
    let value ← inWord UInt16.size (shifted + digit)
    if 255 < value then .error .refused
    else
      let digits ← inWord UInt8.size (p.digits + 1)
      return { p with value, digits }

/-- A dot ends an octet, which goes to its cell. -/
def Progress.dot (p : Progress) : Reading Progress :=
  if p.digits = 0 ∨ p.filled = 3 then .error .refused
  else do
    let cells ← write p.cells p.filled (UInt8.ofNat p.value)
    let filled ← inWord UInt64.size (p.filled + 1)
    return { cells, filled }

/-- The reader takes one byte. -/
def Progress.step (p : Progress) (b : UInt8) : Reading Progress :=
  if 0x30 ≤ b ∧ b ≤ 0x39 then p.digit b
  else if b = 0x2E then p.dot
  else .error .refused

/-- The end of the text ends the fourth octet. -/
def Progress.finish (p : Progress) : Reading (List UInt8) :=
  if p.digits = 0 ∨ p.filled ≠ 3 then .error .refused
  else write p.cells 3 (UInt8.ofNat p.value)

/-- Reads an address in dotted decimal into its four bytes. -/
def read (text : List UInt8) : Reading (List UInt8) := do
  (← text.foldlM Progress.step {}).finish

example : (read "10.020.0.255".toUTF8.toList).toOption = some [10, 20, 0, 255] := by
  decide +kernel

end IPv4.InPlace

namespace Address

/-- The bytes of an address, told apart by what kind of address they are. -/
inductive Raw
  | v4 (octets : List UInt8)
  | v6 (bytes : List UInt8)
deriving DecidableEq, Repr

/-- The bytes of an address, with its kind. -/
def raw : Address → Raw
  | v4 address => .v4 address.octets
  | v6 address => .v6 address.bytes

namespace InPlace

/-- The byte of the dot. -/
def dot : UInt8 := 0x2E

/-- The bytes of what may stand before an IPv4 address written as an IPv6 address. -/
def mappedHead : List UInt8 := "::ffff:".toUTF8.toList

/-- The part of a dotted text that is an IPv4 address. -/
def dotted (text : List UInt8) : Reading (List UInt8) :=
  match findLast IPv6.InPlace.colon text with
  | none => .ok text
  | some place => do
    let head ← textBefore text (place + 1)
    if head.map lowerByte ≠ mappedHead.map lowerByte then .error .refused
    else textFrom text (place + 1)

/-- Reads an address into its bytes. -/
def read (text : List UInt8) : Reading Raw :=
  if text = [] then .error .refused
  else if dot ∈ text then do
    return .v4 (← IPv4.InPlace.read (← dotted text))
  else do
    return .v6 (← IPv6.InPlace.read text)

example : (read "::FFff:1.2.3.4".toUTF8.toList).toOption = some (.v4 [1, 2, 3, 4]) := by
  decide +kernel

end InPlace

end Address

end SpanCourier
