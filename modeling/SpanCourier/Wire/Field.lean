import SpanCourier.Wire.Varint

set_option autoImplicit false

/-! # Fields of a message

A message is a row of fields. Each starts with a key byte, the field number and the shape of what
follows: a base-128 number, eight bytes, or a length and as many bytes. A field whose value is
zero, false or empty is left out; an entry of a repeated field is written even when it is empty.
Next to each writer stands the size of what it writes, found without writing.
-/

namespace SpanCourier.Field

/-- The shape of what follows a key. -/
inductive WireType
  | varint
  | fixed64
  | delimited
deriving DecidableEq, Repr

/-- The number of a shape in a key. -/
def WireType.code : WireType → Nat
  | varint => 0
  | fixed64 => 1
  | delimited => 2

/-- The key of a field; field numbers are below sixteen, so a key is one byte. -/
def key (number : Nat) (type : WireType) : UInt8 := UInt8.ofNat (number * 8 + type.code)

/-- The eight bytes of a word, the lowest first. -/
def littleEndian (n : UInt64) : List UInt8 :=
  (List.range 8).map fun i => UInt8.ofNat (n.toNat >>> (8 * i))

/-! ## Writers -/

/-- A number, left out when it is zero. -/
def varint (number value : Nat) : List UInt8 :=
  if value = 0 then [] else key number .varint :: Varint.write value

/-- A word in eight bytes, left out when it is zero. -/
def fixed64 (number : Nat) (value : UInt64) : List UInt8 :=
  if value = 0 then [] else key number .fixed64 :: littleEndian value

/-- A truth value, left out when it is false. -/
def flag (number : Nat) (value : Bool) : List UInt8 :=
  if value then [key number .varint, 1] else []

/-- The key and the length of a field that takes so many bytes. -/
def head (number length : Nat) : List UInt8 :=
  key number .delimited :: Varint.write length

/-- Bytes with their length, left out when there are none. -/
def delimited (number : Nat) (bytes : List UInt8) : List UInt8 :=
  if bytes = [] then [] else head number bytes.length ++ bytes

/-! ## Sizes -/

/-- The size of a number field. -/
def varintSize (value : Nat) : Nat := if value = 0 then 0 else 1 + Varint.size value

/-- The size of a word field. -/
def fixed64Size (value : UInt64) : Nat := if value = 0 then 0 else 9

/-- The size of a truth field. -/
def flagSize (value : Bool) : Nat := if value then 2 else 0

/-- The size of an entry whose content takes so many bytes. -/
def entrySize (length : Nat) : Nat := 1 + Varint.size length + length

/-- The size of entries whose contents take so many bytes. -/
def entriesSize : List Nat → Nat
  | [] => 0
  | length :: rest => entrySize length + entriesSize rest

/-- The size of a field of bytes. -/
def delimitedSize (length : Nat) : Nat := if length = 0 then 0 else entrySize length

@[simp] theorem length_littleEndian (n : UInt64) : (littleEndian n).length = 8 := by
  simp [littleEndian]

theorem length_fixed64 (number : Nat) (value : UInt64) :
    (fixed64 number value).length = fixed64Size value := by
  rw [fixed64, fixed64Size]
  split <;> simp

theorem length_flag (number : Nat) (value : Bool) :
    (flag number value).length = flagSize value := by
  cases value <;> rfl

end SpanCourier.Field
