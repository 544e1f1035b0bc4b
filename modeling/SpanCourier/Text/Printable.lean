set_option autoImplicit false

/-! # Characters without a visible form

The characters that a quoted text spells by number: controls, format characters, separators
other than the plain blank, and private-use characters. The table lists them in rising,
disjoint ranges of code points, both ends included.
-/

namespace SpanCourier

/-- The ranges of characters without a visible form. -/
def invisibleRanges : List (Nat × Nat) :=
  [(0x0000, 0x001F), (0x007F, 0x00A0), (0x00AD, 0x00AD), (0x0600, 0x0605), (0x061C, 0x061C),
    (0x06DD, 0x06DD), (0x070F, 0x070F), (0x0890, 0x0891), (0x08E2, 0x08E2), (0x1680, 0x1680),
    (0x180E, 0x180E), (0x2000, 0x200F), (0x2028, 0x202F), (0x205F, 0x2064), (0x2066, 0x206F),
    (0x3000, 0x3000), (0xE000, 0xF8FF), (0xFEFF, 0xFEFF), (0xFFF9, 0xFFFB), (0x110BD, 0x110BD),
    (0x110CD, 0x110CD), (0x13430, 0x1343F), (0x1BCA0, 0x1BCA3), (0x1D173, 0x1D17A),
    (0xE0001, 0xE0001), (0xE0020, 0xE007F), (0xF0000, 0xFFFFD), (0x100000, 0x10FFFD)]

/-- A character has a visible form, the plain blank included. -/
def isPrintable (c : Char) : Bool :=
  invisibleRanges.all fun (low, high) => c.toNat < low || high < c.toNat

end SpanCourier
