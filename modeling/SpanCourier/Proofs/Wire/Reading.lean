import SpanCourier.Proofs.Wire.Length
import SpanCourier.Wire.Decoded

set_option autoImplicit false

/-! # What is written is read

Reading undoes writing for numbers, words and fields. Fields stand one after the other, and each
changes what has been read so far; `Absorbed` says that some bytes, whatever follows them, take the
reader from one value to another. A field that is left out takes the reader nowhere, so its value
must be the one that the reader starts with.
-/

namespace SpanCourier

/-! ## Numbers and words -/

namespace Varint

/-- A number is read off the front, and what follows is left. -/
theorem read?_write_append (n : Nat) (rest : List UInt8) :
    read? (write n ++ rest) = some (n, rest) := by
  induction n using Nat.strongRecOn with
  | ind n ih =>
    by_cases h : n < 128
    · -- the high bit of the last byte is clear
      have hb : (UInt8.ofNat n).toNat = n := by
        rw [UInt8.toNat_ofNat']
        omega
      have hlast : UInt8.ofNat n < 128 := by
        rw [UInt8.lt_iff_toNat_lt, hb]
        exact h
      rw [write_of_lt h, List.singleton_append, read?, if_pos hlast, hb]
    · -- the high bit of every other byte is set
      have hge : 128 ≤ n := by omega
      have hb : (UInt8.ofNat (n % 128 + 128)).toNat = n % 128 + 128 := by
        rw [UInt8.toNat_ofNat']
        omega
      have hmore : ¬ UInt8.ofNat (n % 128 + 128) < 128 := by
        rw [UInt8.lt_iff_toNat_lt, hb]
        exact Nat.not_lt.2 (Nat.le_add_left 128 _)
      have hn : n % 128 + 128 - 128 + 128 * (n / 128) = n := by omega
      rw [write_of_ge hge, List.cons_append, read?, if_neg hmore, ih (n / 128) (by omega), hb,
        Option.map_some]
      dsimp only
      rw [hn]

end Varint

namespace Field

theorem take?_append (front rest : List UInt8) :
    take? front.length (front ++ rest) = some (front, rest) := by
  rw [take?, if_pos (by rw [List.length_append]; omega), List.take_left, List.drop_left]

/-- The eight bytes of a word denote it. -/
theorem ofLittleEndian_littleEndian (n : UInt64) : ofLittleEndian (littleEndian n) = n.toNat := by
  -- eight digits to base 256 are enough for a word
  have hn : n.toNat < 2 ^ 64 := n.toNat_lt
  simp only [littleEndian, List.range, List.range.loop, List.map_cons, List.map_nil,
    ofLittleEndian, UInt8.toNat_ofNat']
  omega

/-! ## One field -/

/-- The key byte of a field is the number that holds its number and its wire type. -/
theorem toNat_key {number : Nat} (hn : number < 16) (type : WireType) :
    (key number type).toNat = number * 8 + type.code := by
  have hcode : type.code < 8 := by cases type <;> decide
  rw [key, UInt8.toNat_ofNat']
  omega

/-- After its key, a field is read as its content is. -/
theorem readOne?_key {number : Nat} (hn : number < 16) {type : WireType} {content : Content}
    {bytes rest : List UInt8} (hc : readContent? type.code bytes = some (content, rest)) :
    readOne? (key number type :: bytes) = some ((number, content), rest) := by
  have hcode : type.code < 8 := by cases type <;> decide
  -- a key is below 128, so it is a number of one byte
  have hkey : Varint.read? (key number type :: bytes) =
      some (number * 8 + type.code, bytes) := by
    have hlt : key number type < 128 := by
      rw [UInt8.lt_iff_toNat_lt, toNat_key hn]
      show number * 8 + type.code < 128
      omega
    rw [Varint.read?, if_pos hlt, toNat_key hn]
  have htype : (number * 8 + type.code) % 8 = type.code := by omega
  have hnumber : (number * 8 + type.code) / 8 = number := by omega
  simp only [readOne?, hkey, Option.bind_eq_bind, Option.bind_some, htype, hnumber, hc]
  rfl

theorem readContent?_varint (value : Nat) (rest : List UInt8) :
    readContent? WireType.varint.code (Varint.write value ++ rest) =
      some (.number value, rest) := by
  rw [readContent?, if_pos rfl, Varint.read?_write_append, Option.map_some]

theorem readContent?_fixed64 (value : UInt64) (rest : List UInt8) :
    readContent? WireType.fixed64.code (littleEndian value ++ rest) =
      some (.word value.toNat, rest) := by
  have htake : take? 8 (littleEndian value ++ rest) = some (littleEndian value, rest) := by
    have h := take?_append (littleEndian value) rest
    rw [length_littleEndian] at h
    exact h
  rw [readContent?, if_neg (by decide), if_pos rfl, htake, Option.map_some]
  dsimp only
  rw [ofLittleEndian_littleEndian]

theorem readContent?_delimited (content rest : List UInt8) :
    readContent? WireType.delimited.code
        (Varint.write content.length ++ content ++ rest) =
      some (.bytes content, rest) := by
  rw [readContent?, if_neg (by decide), if_neg (by decide), if_pos rfl, List.append_assoc]
  simp only [Varint.read?_write_append, Option.bind_eq_bind, Option.bind_some, take?_append]
  rfl

end Field

/-! ## Fields in a row -/

theorem readMessage?_nil {α : Type} (start : α) (absorb : α → Nat × Field.Content → Option α) :
    readMessage? start absorb [] = some start := by
  rw [readMessage?, Field.readAll?_nil]
  rfl

/-- Whatever follows them, these bytes take the reader from one value to another. -/
def Absorbed {α : Type} (absorb : α → Nat × Field.Content → Option α) (bytes : List UInt8)
    (a b : α) : Prop :=
  ∀ rest, readMessage? a absorb (bytes ++ rest) = readMessage? b absorb rest

namespace Absorbed

variable {α β γ : Type} {absorb : α → Nat × Field.Content → Option α}
variable {bytes more : List UInt8} {a b c : α} {number : Nat}

theorem nil (a : α) : Absorbed absorb [] a a := fun _ => rfl

theorem append (h : Absorbed absorb bytes a b) (h' : Absorbed absorb more b c) :
    Absorbed absorb (bytes ++ more) a c := by
  intro rest
  rw [List.append_assoc, h, h']

/-- A message that has been absorbed to its end has been read. -/
theorem readMessage?_eq (h : Absorbed absorb bytes a b) :
    readMessage? a absorb bytes = some b := by
  have hend := h []
  rw [List.append_nil, readMessage?_nil] at hend
  exact hend

/-- A field that is read off the front, and taken in. -/
theorem of_readOne? {content : Field.Content}
    (hread : ∀ rest, Field.readOne? (bytes ++ rest) = some ((number, content), rest))
    (habsorb : absorb a (number, content) = some b) : Absorbed absorb bytes a b := by
  intro rest
  rw [readMessage?, readMessage?, Field.readAll?_of_readOne? (hread rest)]
  cases Field.readAll? rest with
  | none => rfl
  | some fields =>
    simp only [Option.map_some, Option.bind_some, List.foldlM_cons, habsorb,
      Option.bind_eq_bind]

/-- A number is taken in, also if it is zero and left out. -/
theorem varint (number : Nat) (put : α → Nat → α) (value : Nat) (hn : number < 16)
    (hput : ∀ n, absorb a (number, .number n) = some (put a n)) (hzero : put a 0 = a) :
    Absorbed absorb (Field.varint number value) a (put a value) := by
  unfold Field.varint
  by_cases h : value = 0
  · rw [if_pos h, h, hzero]
    exact nil a
  · rw [if_neg h]
    refine of_readOne? ?_ (hput value)
    intro rest
    exact Field.readOne?_key hn (Field.readContent?_varint value rest)

theorem fixed64 (number : Nat) (put : α → Nat → α) (value : UInt64) (hn : number < 16)
    (hput : ∀ n, absorb a (number, .word n) = some (put a n)) (hzero : put a 0 = a) :
    Absorbed absorb (Field.fixed64 number value) a (put a value.toNat) := by
  unfold Field.fixed64
  by_cases h : value = 0
  · rw [if_pos h, h, UInt64.toNat_zero, hzero]
    exact nil a
  · rw [if_neg h]
    refine of_readOne? ?_ (hput value.toNat)
    intro rest
    exact Field.readOne?_key hn (Field.readContent?_fixed64 value rest)

theorem flag (number : Nat) (put : α → Bool → α) (value : Bool) (hn : number < 16)
    (hput : absorb a (number, .number 1) = some (put a true)) (hfalse : put a false = a) :
    Absorbed absorb (Field.flag number value) a (put a value) := by
  cases value with
  | false =>
    rw [hfalse]
    exact nil a
  | true =>
    refine of_readOne? ?_ hput
    intro rest
    have hone : Varint.write 1 = [1] := Varint.write_of_lt (by decide)
    have hread := Field.readOne?_key hn (Field.readContent?_varint 1 rest)
    rw [hone] at hread
    exact hread

/-- An entry is taken in, also if its content is empty. -/
theorem entry {content : List UInt8} (hn : number < 16)
    (habsorb : absorb a (number, .bytes content) = some b) :
    Absorbed absorb (Field.head number content.length ++ content) a b := by
  refine of_readOne? ?_ habsorb
  intro rest
  exact Field.readOne?_key hn (Field.readContent?_delimited content rest)

theorem delimited (number : Nat) (put : α → List UInt8 → α) (value : List UInt8)
    (hn : number < 16) (hput : ∀ b, absorb a (number, .bytes b) = some (put a b))
    (hempty : put a [] = a) : Absorbed absorb (Field.delimited number value) a (put a value) := by
  unfold Field.delimited
  by_cases h : value = []
  · rw [if_pos h, h, hempty]
    exact nil a
  · rw [if_neg h]
    exact entry hn (hput value)

theorem text (number : Nat) (put : α → String → α) (value : String) (hn : number < 16)
    (hput : ∀ b, absorb a (number, .bytes b) = (ofUtf8? b).map (put a))
    (hempty : put a "" = a) :
    Absorbed absorb (Field.delimited number (utf8 value)) a (put a value) := by
  unfold Field.delimited
  by_cases h : utf8 value = []
  · rw [if_pos h, utf8_eq_nil_iff.1 h, hempty]
    exact nil a
  · rw [if_neg h]
    refine entry hn ?_
    rw [hput, ofUtf8?_utf8, Option.map_some]

/-- Entries that are taken in one by one are kept in order. -/
theorem flatMap {write : β → List UInt8} (f : List γ → α) (value : β → γ)
    (hwrite : ∀ vs x, Absorbed absorb (write x) (f vs) (f (vs ++ [value x]))) (xs : List β)
    (vs : List γ) : Absorbed absorb (xs.flatMap write) (f vs) (f (vs ++ xs.map value)) := by
  induction xs generalizing vs with
  | nil =>
    rw [List.map_nil, List.append_nil]
    exact nil _
  | cons x rest ih =>
    have h := (hwrite vs x).append (ih (vs ++ [value x]))
    rw [List.append_assoc] at h
    exact h

end Absorbed

end SpanCourier
