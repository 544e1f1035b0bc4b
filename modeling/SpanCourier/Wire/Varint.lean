set_option autoImplicit false

/-! # Base-128 numbers

A number is written in groups of seven bits, the lowest first; the high bit of a byte says that
another follows. `write` gives the bytes, `size` their number in advance, `read?` reads a number
off the front of bytes.
-/

namespace SpanCourier.Varint

/-- The bytes of a number. -/
def write (n : Nat) : List UInt8 :=
  if n < 128 then [UInt8.ofNat n] else UInt8.ofNat (n % 128 + 128) :: write (n / 128)
termination_by n
decreasing_by omega

/-- How many bytes a number takes: one for every seven bits begun, and one for zero. -/
def size (n : Nat) : Nat := if n = 0 then 1 else (n.log2 + 1 + 6) / 7

/-- Reads a number off the front, and gives what follows it. -/
def read? : List UInt8 → Option (Nat × List UInt8)
  | [] => none
  | b :: rest =>
    if b < 128 then some (b.toNat, rest)
    else (read? rest).map fun (n, rest) => (b.toNat - 128 + 128 * n, rest)

theorem write_of_lt {n : Nat} (h : n < 128) : write n = [UInt8.ofNat n] := by
  rw [write, if_pos h]

theorem write_of_ge {n : Nat} (h : 128 ≤ n) :
    write n = UInt8.ofNat (n % 128 + 128) :: write (n / 128) := by
  rw [write, if_neg (by omega)]

example : write 300 = [0xac, 0x02] := by decide +kernel
example : size 300 = 2 := by decide +kernel

end SpanCourier.Varint
