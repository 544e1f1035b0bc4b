import Mathlib.Data.Nat.Bitwise
import SpanCourier.Proofs.Wire.Reading
import SpanCourier.Wire.Word

set_option autoImplicit false

/-! # Numbers take as few bytes as they can, and say where they end

`Varint.Denotes` says which bytes denote which number. A row of `k` bytes has room for `7 * k` bits
(`Denotes.lt`), and a number of so many bits takes no more than `k` bytes (`size_le_iff`), so no row
that denotes a number is shorter than what is written of it. What a machine makes of a word is what
is written of its number: `Word.put_eq`, `Word.size_eq`, `Word.readOn?_write_append`.
-/

namespace SpanCourier.Varint

/-! ## What bytes denote -/

theorem continues_eq (b : UInt8) : Word.continues b = decide (128 ≤ b.toNat) := by
  have hb : b.toNat < 256 := b.toNat_lt
  -- the masked byte is the high bit at its place
  have hmask : (b &&& 0x80).toNat = b.toNat / 128 * 128 := by
    rw [UInt8.toNat_and]
    show b.toNat &&& 2 ^ 7 = _
    rw [Nat.and_two_pow, Nat.toNat_testBit]
    omega
  rw [Word.continues]
  refine decide_eq_decide.2 ?_
  rw [ne_eq, ← UInt8.toNat_inj, hmask]
  show ¬ b.toNat / 128 * 128 = 0 ↔ _
  omega

/-- The last byte of a number carries all that is left of it. -/
theorem byte_of_lt {n : Nat} (h : n < 128) :
    Word.continues (UInt8.ofNat n) = false ∧ (UInt8.ofNat n).toNat % 128 = n := by
  have hb : (UInt8.ofNat n).toNat = n := by
    rw [UInt8.toNat_ofNat']
    omega
  rw [continues_eq, hb]
  exact ⟨decide_eq_false (Nat.not_le.2 h), Nat.mod_eq_of_lt h⟩

/-- Every other byte carries the lowest seven bits, under a high bit that is set. -/
theorem byte_of_ge (n : Nat) :
    Word.continues (UInt8.ofNat (n % 128 + 128)) = true
      ∧ (UInt8.ofNat (n % 128 + 128)).toNat % 128 = n % 128 := by
  have hb : (UInt8.ofNat (n % 128 + 128)).toNat = n % 128 + 128 := by
    rw [UInt8.toNat_ofNat']
    omega
  rw [continues_eq, hb]
  exact ⟨decide_eq_true (Nat.le_add_left 128 _), by omega⟩

/-- Bytes denote a number: the high bit of all but the last is set, and the other bits are the
number in groups of seven, the lowest first. -/
inductive Denotes : List UInt8 → Nat → Prop
  | last {b : UInt8} (h : Word.continues b = false) : Denotes [b] (b.toNat % 128)
  | more {b : UInt8} {bytes : List UInt8} {n : Nat} (h : Word.continues b = true)
      (hmore : Denotes bytes n) : Denotes (b :: bytes) (b.toNat % 128 + 128 * n)

/-- What is written of a number denotes it. -/
theorem denotes_write (n : Nat) : Denotes (write n) n := by
  induction n using Nat.strongRecOn with
  | ind n ih =>
    by_cases h : n < 128
    · obtain ⟨hlast, hn⟩ := byte_of_lt h
      have hdenotes := Denotes.last hlast
      rwa [hn, ← write_of_lt h] at hdenotes
    · have hge : 128 ≤ n := Nat.le_of_not_lt h
      obtain ⟨hmore, hn⟩ := byte_of_ge n
      have hdenotes := Denotes.more hmore (ih (n / 128) (by omega))
      rwa [hn, Nat.mod_add_div, ← write_of_ge hge] at hdenotes

/-- The high bit tells the last byte from the others. -/
theorem Denotes.exists_front {bytes : List UInt8} {n : Nat} (h : Denotes bytes n) :
    ∃ front last, bytes = front ++ [last] ∧ (∀ b ∈ front, Word.continues b = true)
      ∧ Word.continues last = false := by
  induction h with
  | @last b h => exact ⟨[], b, rfl, List.forall_mem_nil _, h⟩
  | @more b bytes n h _ ih =>
    obtain ⟨front, last, rfl, hfront, hlast⟩ := ih
    exact ⟨b :: front, last, rfl, List.forall_mem_cons.2 ⟨h, hfront⟩, hlast⟩

/-- So many bytes have room for seven bits each. -/
theorem Denotes.lt {bytes : List UInt8} {n : Nat} (h : Denotes bytes n) :
    n < 2 ^ (7 * bytes.length) := by
  induction h with
  | @last b _ =>
    show b.toNat % 128 < 128
    omega
  | @more b bytes n _ _ ih =>
    rw [List.length_cons, Nat.mul_succ, Nat.pow_add]
    omega

theorem Denotes.length_pos {bytes : List UInt8} {n : Nat} (h : Denotes bytes n) :
    0 < bytes.length := by
  cases h <;> exact Nat.succ_pos _

/-- The reader looks at the high bit of a byte and at the seven bits below it. -/
theorem read?_cons (b : UInt8) (bytes : List UInt8) :
    read? (b :: bytes) =
      if Word.continues b then
        (read? bytes).map fun more => (b.toNat % 128 + 128 * more.1, more.2)
      else some (b.toNat % 128, bytes) := by
  have hb : b.toNat < 256 := b.toNat_lt
  have hiff : b < 128 ↔ b.toNat < 128 := UInt8.lt_iff_toNat_lt
  rw [read?, continues_eq]
  by_cases h : b.toNat < 128
  · rw [if_pos (hiff.2 h), if_neg (by simpa using h), Nat.mod_eq_of_lt h]
  · have hmod : b.toNat % 128 = b.toNat - 128 := by omega
    rw [if_neg (mt hiff.1 h), if_pos (by simpa using h), hmod]

/-- The reader takes off the front the bytes that denote what it reads, and nothing else. -/
theorem read?_eq_some_iff {bytes rest : List UInt8} {n : Nat} :
    read? bytes = some (n, rest) ↔ ∃ front, Denotes front n ∧ bytes = front ++ rest := by
  constructor
  · intro h
    induction bytes generalizing n rest with
    | nil => simp [read?] at h
    | cons b bytes ih =>
      rw [read?_cons] at h
      by_cases hb : Word.continues b = true
      · rw [if_pos hb] at h
        obtain ⟨⟨m, t⟩, ht, h⟩ := Option.map_eq_some_iff.1 h
        obtain ⟨rfl, rfl⟩ := Prod.mk.inj h
        obtain ⟨front, hfront, rfl⟩ := ih ht
        exact ⟨b :: front, .more hb hfront, rfl⟩
      · rw [if_neg hb] at h
        obtain ⟨rfl, rfl⟩ := Prod.mk.inj (Option.some.inj h)
        exact ⟨[b], .last (Bool.eq_false_iff.2 hb), rfl⟩
  · rintro ⟨front, hfront, rfl⟩
    induction hfront with
    | @last b h => rw [List.singleton_append, read?_cons, if_neg (Bool.eq_false_iff.1 h)]
    | @more b bytes n h _ ih => rw [List.cons_append, read?_cons, if_pos h, ih, Option.map_some]

/-! ## Sizes -/

/-- A number takes so many bytes if and only if its bits are seven for each. -/
theorem size_le_iff {n k : Nat} : size n ≤ k + 1 ↔ n < 2 ^ (7 * (k + 1)) := by
  unfold size
  by_cases hn : n = 0
  · rw [if_pos hn, hn]
    exact iff_of_true (Nat.le_add_left 1 k) (Nat.two_pow_pos _)
  · rw [if_neg hn, ← Nat.log2_lt hn]
    omega

/-- No bytes that denote a number are fewer than those that are written of it. -/
theorem Denotes.size_le {bytes : List UInt8} {n : Nat} (h : Denotes bytes n) :
    size n ≤ bytes.length := by
  obtain ⟨k, hk⟩ := Nat.exists_eq_add_one.2 h.length_pos
  rw [hk, size_le_iff, ← hk]
  exact h.lt

/-! ## Words -/

namespace Word

/-- The masked byte with its high bit set is the byte that is written. -/
theorem toUInt8_mask (v : UInt64) :
    ((v &&& 0x7f) ||| 0x80).toUInt8 = UInt8.ofNat (v.toNat % 128 + 128) := by
  have hlow : v.toNat &&& 127 = v.toNat % 128 := Nat.and_two_pow_sub_one_eq_mod v.toNat 7
  have hhigh : v.toNat % 128 ||| 128 = v.toNat % 128 + 128 := by
    have hlt : v.toNat % 128 < 2 ^ 7 := Nat.mod_lt _ (by decide)
    rw [Nat.or_comm, Nat.add_comm]
    exact (Nat.two_pow_add_eq_or_of_lt hlt 1).symm
  rw [← UInt8.toNat_inj, UInt64.toNat_toUInt8, UInt64.toNat_or, UInt64.toNat_and,
    UInt8.toNat_ofNat']
  show (v.toNat &&& 127 ||| 128) % 2 ^ 8 = _
  rw [hlow, hhigh]

/-- The writer puts what is written of the number behind what is there. -/
theorem put_eq (buffer : List UInt8) (v : UInt64) : put buffer v = buffer ++ write v.toNat := by
  fun_induction put buffer v with
  | case1 buffer v h ih =>
    have hge : 128 ≤ v.toNat := UInt64.le_iff_toNat_le.1 h
    rw [ih, toNat_shiftRight, toUInt8_mask, write_of_ge hge, List.append_assoc,
      List.singleton_append]
  | case2 buffer v h =>
    have hlt : v.toNat < 128 := Nat.not_le.1 (fun hge => h (UInt64.le_iff_toNat_le.2 hge))
    rw [write_of_lt hlt]
    rfl

/-- Above the highest bit of a word stand its leading zeros. -/
theorem log2_add_clz {v : UInt64} (h : v ≠ 0) : v.toNat.log2 + v.toBitVec.clz.toNat = 63 := by
  have hne : v.toBitVec ≠ 0#64 := fun heq => h (UInt64.toBitVec_inj.1 heq)
  have hn : v.toNat ≠ 0 := fun heq => h (UInt64.toNat_inj.1 heq)
  have hlow : 2 ^ (64 - 1 - v.toBitVec.clz.toNat) ≤ v.toNat :=
    BitVec.two_pow_sub_clz_le_toNat_of_ne_zero (by decide) hne
  have hhigh : v.toNat < 2 ^ (64 - v.toBitVec.clz.toNat) := BitVec.toNat_lt_two_pow_sub_clz
  have hclz : v.toBitVec.clz < 64#64 := BitVec.clz_lt_iff_ne_zero.2 hne
  have hclz' : v.toBitVec.clz.toNat < 64 := hclz
  have hlog := (Nat.log2_lt hn).2 hhigh
  have hlog' : ¬ v.toNat.log2 < 64 - 1 - v.toBitVec.clz.toNat :=
    mt (Nat.log2_lt hn).1 (Nat.not_lt.2 hlow)
  omega

/-- The leading zeros of a word give the size of its number. -/
theorem size_eq (v : UInt64) : size v = Varint.size v.toNat := by
  unfold size Varint.size
  by_cases h : v = 0
  · rw [if_pos h, h]
    rfl
  · have hn : v.toNat ≠ 0 := fun heq => h (UInt64.toNat_inj.1 heq)
    have hclz := log2_add_clz h
    rw [if_neg h, if_neg hn]
    dsimp only
    omega

/-- Seven bits that are shifted up stand above the bits that are there. -/
theorem toNat_place {word : UInt64} {shift : Nat} (b : UInt8) (hshift : shift < 64)
    (hword : word.toNat < 2 ^ shift) (hb : 2 ^ shift * (b.toNat % 128) < 2 ^ 64) :
    (place word shift b).toNat = word.toNat + 2 ^ shift * (b.toNat % 128) := by
  have hlow : b.toNat &&& 127 = b.toNat % 128 := Nat.and_two_pow_sub_one_eq_mod b.toNat 7
  have hplace : (UInt64.ofNat shift).toNat % 64 = shift := by
    rw [UInt64.toNat_ofNat']
    omega
  rw [place, UInt64.toNat_or, UInt64.toNat_shiftLeft, hplace, UInt8.toNat_toUInt64,
    UInt8.toNat_and]
  show word.toNat ||| (b.toNat &&& 127) <<< shift % 2 ^ 64 = _
  rw [hlow, Nat.shiftLeft_eq, Nat.mul_comm, Nat.mod_eq_of_lt hb, Nat.or_comm, Nat.add_comm]
  exact (Nat.two_pow_add_eq_or_of_lt hword _).symm

/-- While the bits of a number fit into the word, reading on gives the word with the number above
the bits that were known. -/
theorem readOn?_write_append (n : Nat) (word : UInt64) {shift : Nat} (hshift : shift < 64)
    (hword : word.toNat < 2 ^ shift) (hn : word.toNat + 2 ^ shift * n < 2 ^ 64)
    (rest : List UInt8) :
    readOn? word shift (write n ++ rest) =
      some (UInt64.ofNat (word.toNat + 2 ^ shift * n), rest) := by
  induction n using Nat.strongRecOn generalizing word shift with
  | ind n ih =>
    by_cases h : n < 128
    · obtain ⟨hlast, hb⟩ := byte_of_lt h
      have hplace := toNat_place (UInt8.ofNat n) hshift hword (by rw [hb]; omega)
      rw [hb] at hplace
      rw [write_of_lt h, List.singleton_append, readOn?, if_neg (Nat.not_le.2 hshift),
        if_neg (Bool.eq_false_iff.1 hlast), ← hplace, UInt64.ofNat_toNat]
    · have hge : 128 ≤ n := Nat.le_of_not_lt h
      obtain ⟨hmore, hb⟩ := byte_of_ge n
      have hpow : 2 ^ (shift + 7) = 2 ^ shift * 128 := Nat.pow_add ..
      -- the number is its lowest seven bits, and what is left of it above them
      have hsplit : 2 ^ shift * n = 2 ^ shift * (n % 128) + 2 ^ (shift + 7) * (n / 128) := by
        rw [hpow, Nat.mul_assoc, ← Nat.mul_add, Nat.mod_add_div]
      have hplace := toNat_place (UInt8.ofNat (n % 128 + 128)) hshift hword (by rw [hb]; omega)
      rw [hb] at hplace
      -- as something is left, its bits have room in the word
      have hroom : shift + 7 < 64 := by
        have hleft : 2 ^ (shift + 7) * 1 ≤ 2 ^ (shift + 7) * (n / 128) :=
          Nat.mul_le_mul_left _ (by omega)
        have hlt : 2 ^ (shift + 7) < 2 ^ 64 := by omega
        exact (Nat.pow_lt_pow_iff_right (by decide)).1 hlt
      have hbelow : 2 ^ shift * (n % 128) + 2 ^ shift ≤ 2 ^ shift * 128 :=
        Nat.mul_le_mul_left _ (by omega : n % 128 + 1 ≤ 128)
      have hnext := ih (n / 128) (by omega) (place word shift (UInt8.ofNat (n % 128 + 128))) hroom
        (by omega) (by omega)
      rw [write_of_ge hge, List.cons_append, readOn?, if_neg (Nat.not_le.2 hshift), if_pos hmore,
        hnext, hplace, hsplit, Nat.add_assoc]

/-- A word is read off the front, and what follows is left. -/
theorem read?_write_append (v : UInt64) (rest : List UInt8) :
    read? (write v.toNat ++ rest) = some (v, rest) := by
  have hfits : (0 : UInt64).toNat + 2 ^ 0 * v.toNat = v.toNat := by
    show 0 + 1 * v.toNat = v.toNat
    omega
  have hread := readOn?_write_append v.toNat 0 (Nat.zero_lt_succ 63) Nat.zero_lt_one
    (by rw [hfits]; exact v.toNat_lt) rest
  rwa [hfits, UInt64.ofNat_toNat] at hread

end Word

/-- Numbers of 64 bits are written with no byte too many, and so that their end is seen. Behind any
buffer the writer puts the bytes of the number, as many as the leading zeros of the word say: one to
ten. The high bit of all but the last is set; they denote the number, and no fewer bytes do; and
whatever follows them, a reader gives the number and what follows, whether it counts in numbers or
shifts within a word. -/
theorem words_delimited (v : UInt64) :
    (∀ buffer, Word.put buffer v = buffer ++ write v.toNat)
      ∧ (write v.toNat).length = Word.size v ∧ 1 ≤ Word.size v ∧ Word.size v ≤ 10
      ∧ (∃ front last, write v.toNat = front ++ [last]
          ∧ (∀ b ∈ front, Word.continues b = true) ∧ Word.continues last = false)
      ∧ Denotes (write v.toNat) v.toNat
      ∧ (∀ bytes, Denotes bytes v.toNat → Word.size v ≤ bytes.length)
      ∧ ∀ rest, read? (write v.toNat ++ rest) = some (v.toNat, rest)
          ∧ Word.read? (write v.toNat ++ rest) = some (v, rest) := by
  have hdenotes : Denotes (write v.toNat) v.toNat := denotes_write v.toNat
  rw [Word.size_eq]
  refine ⟨fun buffer => Word.put_eq buffer v, length_write v.toNat, ?_, ?_,
    hdenotes.exists_front, hdenotes, fun bytes h => h.size_le, fun rest => ⟨?_, ?_⟩⟩
  · rw [← length_write]
    exact hdenotes.length_pos
  · -- ten bytes have room for seventy bits
    have hlt : v.toNat < 2 ^ 64 := v.toNat_lt
    exact size_le_iff.2 (Nat.lt_trans hlt (by decide))
  · exact read?_eq_some_iff.2 ⟨_, hdenotes, rfl⟩
  · exact Word.read?_write_append v rest

end SpanCourier.Varint
