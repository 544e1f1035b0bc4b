import SpanCourier.Wire.Varint

set_option autoImplicit false

/-! # Base-128 numbers in a machine word

The numbers of `Wire/Varint.lean` as a machine handles them that has words of 64 bits. `put` masks
off seven bits at a time and shifts the word down, until what is left fits into seven bits; `size`
counts the zero bits above the highest one; `read?` shifts the seven bits of each byte up to their
place, and refuses a number that goes on beyond the word.
-/

namespace SpanCourier.Varint.Word

/-- The high bit of a byte: another byte follows. -/
def continues (b : UInt8) : Bool := b &&& 0x80 ≠ 0

/-- Shifting seven bits out divides by 128. -/
theorem toNat_shiftRight (v : UInt64) : (v >>> 7).toNat = v.toNat / 128 := by
  rw [UInt64.toNat_shiftRight]
  exact Nat.shiftRight_eq_div_pow ..

/-- A buffer with the bytes of a word behind it. -/
def put (buffer : List UInt8) (v : UInt64) : List UInt8 :=
  if 0x80 ≤ v then put (buffer ++ [((v &&& 0x7f) ||| 0x80).toUInt8]) (v >>> 7)
  else buffer ++ [v.toUInt8]
termination_by v.toNat
decreasing_by
  rename_i h
  have hv : 128 ≤ v.toNat := UInt64.le_iff_toNat_le.1 h
  rw [toNat_shiftRight]
  omega

/-- How many bytes a word takes: one for every seven bits begun, and one for zero. -/
def size (v : UInt64) : Nat :=
  if v = 0 then 1
  else
    let bits := 64 - v.toBitVec.clz.toNat
    (bits + 6) / 7

/-- A word with the low seven bits of a byte put in from `shift` on. -/
def place (word : UInt64) (shift : Nat) (b : UInt8) : UInt64 :=
  word ||| ((b &&& 0x7f).toUInt64 <<< UInt64.ofNat shift)

/-- Reads on in a number of which the bits below `shift` are known. -/
def readOn? (word : UInt64) (shift : Nat) : List UInt8 → Option (UInt64 × List UInt8)
  | [] => none
  | b :: rest =>
    if 64 ≤ shift then none
    else if continues b then readOn? (place word shift b) (shift + 7) rest
    else some (place word shift b, rest)

/-- Reads a word off the front, and gives what follows it. -/
def read? : List UInt8 → Option (UInt64 × List UInt8) := readOn? 0 0

example : put [] 300 = [0xac, 0x02] := by decide +kernel
example : size 300 = 2 := by decide +kernel
example : read? [0xac, 0x02, 0x07] = some (300, [0x07]) := by decide +kernel

end SpanCourier.Varint.Word
