import SpanCourier.Text.Utf8
import SpanCourier.Proofs.Text.Split

set_option autoImplicit false

/-! # The bytes of characters

The bytes of a text are those of its characters, one after the other (`utf8_eq`). An ASCII character
is one byte, its number, and every byte of another character is 128 at least, its first one 192 at
least (`utf8EncodeChar_of_le`). So the byte of an ASCII character stands for that character wherever
it is found: ASCII characters can be read back from their bytes one by one (`byteChars_utf8Chars`),
and a text is cut at such a character as its bytes are (`splitOn_utf8Chars`).
-/

namespace SpanCourier

/-- The bytes of some characters in UTF-8. -/
def utf8Chars (chars : List Char) : List UInt8 := chars.flatMap String.utf8EncodeChar

theorem utf8_eq (s : String) : utf8 s = utf8Chars s.toList := by
  rw [utf8, ← String.utf8Encode_toList, List.utf8Encode, List.toList_data_toByteArray, utf8Chars]

@[simp] theorem utf8Chars_nil : utf8Chars [] = [] := rfl

theorem utf8Chars_cons (c : Char) (rest : List Char) :
    utf8Chars (c :: rest) = String.utf8EncodeChar c ++ utf8Chars rest := rfl

theorem utf8Chars_append (front back : List Char) :
    utf8Chars (front ++ back) = utf8Chars front ++ utf8Chars back := List.flatMap_append

theorem utf8Chars_eq_nil_iff {chars : List Char} : utf8Chars chars = [] ↔ chars = [] := by
  rw [utf8Chars, List.flatMap_eq_nil_iff]
  constructor
  · intro h
    cases chars with
    | nil => rfl
    | cons c rest => exact absurd (h c List.mem_cons_self) String.utf8EncodeChar_ne_nil
  · rintro rfl c hc
    exact absurd hc List.not_mem_nil

theorem utf8Chars_inj {a b : List Char} : utf8Chars a = utf8Chars b ↔ a = b := by
  have h := utf8_inj (s := String.ofList a) (t := String.ofList b)
  rw [utf8_eq, utf8_eq, String.toList_ofList, String.toList_ofList] at h
  exact h.trans String.ofList_inj

/-! ## One character -/

/-- The byte of an ASCII character. -/
def asciiByte (c : Char) : UInt8 := UInt8.ofNat c.toNat

theorem toNat_asciiByte {c : Char} (h : c.toNat < 128) : (asciiByte c).toNat = c.toNat :=
  UInt8.toNat_ofNat_of_lt' (Nat.lt_trans h (by decide))

theorem utf8EncodeChar_of_lt {c : Char} (h : c.toNat < 128) :
    String.utf8EncodeChar c = [asciiByte c] :=
  if_pos (Nat.le_of_lt_succ h)

/-- The bytes of a character outside ASCII. -/
theorem utf8EncodeChar_of_le {c : Char} (h : 128 ≤ c.toNat) :
    ∃ lead rest, String.utf8EncodeChar c = lead :: rest ∧ 192 ≤ lead.toNat
      ∧ ∀ b ∈ rest, 128 ≤ b.toNat := by
  have hmore : ∀ n, 128 ≤ (UInt8.ofNat (n % 64 + 128)).toNat := by
    intro n
    rw [UInt8.toNat_ofNat']
    omega
  have hlong : ¬ c.val.toNat ≤ 127 := Nat.not_le_of_lt h
  simp only [String.utf8EncodeChar, if_neg hlong]
  -- two, three or four bytes, and the lead byte says how many
  split
  · refine ⟨_, _, rfl, ?_, List.forall_mem_singleton.2 (hmore _)⟩
    rw [UInt8.toNat_ofNat']
    omega
  · split
    · refine ⟨_, _, rfl, ?_,
        List.forall_mem_cons.2 ⟨hmore _, List.forall_mem_singleton.2 (hmore _)⟩⟩
      rw [UInt8.toNat_ofNat']
      omega
    · refine ⟨_, _, rfl, ?_, List.forall_mem_cons.2
        ⟨hmore _, List.forall_mem_cons.2 ⟨hmore _, List.forall_mem_singleton.2 (hmore _)⟩⟩⟩
      rw [UInt8.toNat_ofNat']
      omega

theorem le_of_mem_utf8EncodeChar {c : Char} (h : 128 ≤ c.toNat) {b : UInt8}
    (hb : b ∈ String.utf8EncodeChar c) : 128 ≤ b.toNat := by
  obtain ⟨lead, rest, he, hlead, hrest⟩ := utf8EncodeChar_of_le h
  rw [he] at hb
  rcases List.mem_cons.1 hb with rfl | hb
  · omega
  · exact hrest b hb

/-- The first byte of a character tells that a character begins. -/
theorem utf8EncodeChar_lead (c : Char) :
    ∃ lead rest, String.utf8EncodeChar c = lead :: rest
      ∧ (lead.toNat < 128 ∨ 192 ≤ lead.toNat) := by
  by_cases h : c.toNat < 128
  · exact ⟨_, _, utf8EncodeChar_of_lt h, .inl ((toNat_asciiByte h).symm ▸ h)⟩
  · obtain ⟨lead, rest, he, hlead, -⟩ := utf8EncodeChar_of_le (Nat.le_of_not_lt h)
    exact ⟨lead, rest, he, .inr hlead⟩

/-- The byte of an ASCII character is in no other character. -/
theorem asciiByte_mem_iff {sep c : Char} (hsep : sep.toNat < 128) :
    asciiByte sep ∈ String.utf8EncodeChar c ↔ c = sep := by
  by_cases h : c.toNat < 128
  · rw [utf8EncodeChar_of_lt h, List.mem_singleton, ← UInt8.toNat_inj, toNat_asciiByte hsep,
      toNat_asciiByte h, Char.toNat_inj, eq_comm]
  · refine iff_of_false (fun hb => ?_) (by rintro rfl; exact h hsep)
    have hle := le_of_mem_utf8EncodeChar (Nat.le_of_not_lt h) hb
    rw [toNat_asciiByte hsep] at hle
    omega

theorem asciiByte_mem_utf8Chars_iff {c : Char} (hc : c.toNat < 128) {text : List Char} :
    asciiByte c ∈ utf8Chars text ↔ c ∈ text := by
  rw [utf8Chars, List.mem_flatMap]
  simp only [asciiByte_mem_iff hc]
  simp

/-! ## Bytes read as characters -/

/-- The characters that have the bytes as their numbers. -/
def byteChars (bytes : List UInt8) : List Char := bytes.map fun b => Char.ofNat b.toNat

@[simp] theorem length_byteChars (bytes : List UInt8) : (byteChars bytes).length = bytes.length :=
  List.length_map _

theorem toNat_ofNat_toNat (b : UInt8) : (Char.ofNat b.toNat).toNat = b.toNat := by
  have hvalid : b.toNat.isValidChar := .inl (Nat.lt_trans b.toNat_lt (by decide))
  rw [Char.ofNat, dif_pos hvalid]
  rfl

/-- ASCII characters are those that have their bytes as numbers. -/
theorem byteChars_utf8Chars {chars : List Char} (h : ∀ c ∈ chars, c.toNat < 128) :
    byteChars (utf8Chars chars) = chars := by
  induction chars with
  | nil => rfl
  | cons c rest ih =>
    obtain ⟨hc, hrest⟩ := List.forall_mem_cons.1 h
    calc byteChars (utf8Chars (c :: rest))
        = Char.ofNat (asciiByte c).toNat :: byteChars (utf8Chars rest) := by
          rw [utf8Chars_cons, utf8EncodeChar_of_lt hc]
          rfl
      _ = c :: rest := by rw [toNat_asciiByte hc, Char.ofNat_toNat, ih hrest]

/-- Among the characters that have the bytes of a character outside ASCII as numbers, one is outside
ASCII too. -/
theorem exists_mem_byteChars {chars : List Char} {c : Char} (hc : c ∈ chars) (h : 128 ≤ c.toNat) :
    ∃ d ∈ byteChars (utf8Chars chars), 128 ≤ d.toNat := by
  obtain ⟨lead, more, he, -⟩ := utf8EncodeChar_of_le h
  have hlead : lead ∈ String.utf8EncodeChar c := he ▸ List.mem_cons_self
  have hbyte : lead ∈ utf8Chars chars := List.mem_flatMap.2 ⟨c, hc, hlead⟩
  refine ⟨Char.ofNat lead.toNat, List.mem_map_of_mem hbyte, ?_⟩
  rw [toNat_ofNat_toNat]
  exact le_of_mem_utf8EncodeChar h hlead

/-! ## Cutting at an ASCII character -/

theorem splitOn_append_of_notMem {sep : UInt8} {front : List UInt8} (h : sep ∉ front)
    (back : List UInt8) :
    (front ++ back).splitOn sep = (back.splitOn sep).modifyHead (front ++ ·) := by
  induction front with
  | nil => exact (congrFun List.modifyHead_id _).symm
  | cons b front ih =>
    rw [List.mem_cons, not_or] at h
    rw [List.cons_append, List.splitOn_cons_eq_if_modifyHead, ih h.2,
      if_neg (mt beq_iff_eq.1 (Ne.symm h.1)), List.modifyHead_modifyHead]
    rfl

/-- The bytes are cut at an ASCII character where the text is. -/
theorem splitOn_utf8Chars {sep : Char} (hsep : sep.toNat < 128) (text : List Char) :
    (utf8Chars text).splitOn (asciiByte sep) = (fields sep text).map utf8Chars := by
  rw [fields_eq_splitOn]
  induction text with
  | nil => rfl
  | cons c rest ih =>
    rw [utf8Chars_cons, List.splitOn_cons_eq_if_modifyHead]
    by_cases hc : c = sep
    · subst hc
      rw [if_pos (beq_self_eq_true c), utf8EncodeChar_of_lt hsep, List.singleton_append,
        List.splitOn_cons_eq_if_modifyHead, if_pos (beq_self_eq_true _), ih]
      rfl
    · rw [if_neg (mt beq_iff_eq.1 hc), splitOn_append_of_notMem (mt (asciiByte_mem_iff hsep).1 hc),
        ih]
      cases rest.splitOn sep <;> rfl

end SpanCourier
