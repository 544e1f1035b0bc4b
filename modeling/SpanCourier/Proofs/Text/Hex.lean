import Mathlib.Data.Nat.Digits.Defs
import SpanCourier.Text.Hex

set_option autoImplicit false

/-! # What hexadecimal text denotes

The value of a digit is its place among the sixteen digits (`hexValue?_eq_some_iff`), and a row of
digits denotes a number by their places (`natOfHex_eq_hexNumber`). `bytesOfHex?` reads exactly the
even rows of digits (`bytesOfHex?_isSome_iff`), and the bytes that it reads are half as many
(`length_of_bytesOfHex?`) and denote the same number (`byteNumber_of_bytesOfHex?`).
-/

namespace SpanCourier

/-! ## Digits -/

theorem toNat_lt_of_isHex {c : Char} (h : isHex c = true) : c.toNat < 128 := by
  have hle : ∀ {a b : Char}, a ≤ b → a.toNat ≤ b.toNat := by
    intro a b hab
    exact hab
  unfold isHex hexValue? at h
  split at h
  · next hc => exact Nat.lt_of_le_of_lt (hle hc.2) (by decide)
  · split at h
    · next hc => exact Nat.lt_of_le_of_lt (hle hc.2) (by decide)
    · split at h
      · next hc => exact Nat.lt_of_le_of_lt (hle hc.2) (by decide)
      · cases h

/-- The hexadecimal digits in the order of their values. -/
def hexDigits : List Char := "0123456789abcdef".toList

theorem toNat_lt_of_mem_hexDigits {c : Char} (h : c.toLower ∈ hexDigits) : c.toNat < 128 := by
  have hall : hexDigits.all (fun d => d.toNat < 128) = true := by decide
  by_cases hupper : c.val ≥ 'A'.val ∧ c.val ≤ 'Z'.val
  · exact Nat.lt_of_le_of_lt hupper.2 (by decide)
  · have hlower : c.toLower = c := dif_neg hupper
    rw [hlower] at h
    exact of_decide_eq_true (List.all_eq_true.1 hall c h)

/-- The value of a digit is its place among the digits, in either letter case. -/
theorem hexValue?_eq_some_iff {c : Char} {n : Nat} :
    hexValue? c = some n ↔ c.toLower ∈ hexDigits ∧ hexDigits.idxOf c.toLower = n := by
  -- only ASCII characters are digits on either side, and for those it can be decided
  have hall : ∀ m : Fin 128, hexValue? (Char.ofNat m) =
      if (Char.ofNat m).toLower ∈ hexDigits then some (hexDigits.idxOf (Char.ofNat m).toLower)
      else none := by
    decide +kernel
  by_cases hlt : c.toNat < 128
  · have hc := hall ⟨c.toNat, hlt⟩
    rw [Char.ofNat_toNat] at hc
    rw [hc]
    split
    · next hmem => exact ⟨fun h => ⟨hmem, Option.some.inj h⟩, fun h => congrArg some h.2⟩
    · next hmem => exact ⟨fun h => (Option.some_ne_none _ h.symm).elim, fun h => absurd h.1 hmem⟩
  · refine iff_of_false (fun h => ?_) fun h => hlt (toNat_lt_of_mem_hexDigits h.1)
    exact hlt (toNat_lt_of_isHex (by rw [isHex, h]; rfl))

theorem lt_of_hexValue? {c : Char} {n : Nat} (h : hexValue? c = some n) : n < 16 := by
  obtain ⟨hmem, rfl⟩ := hexValue?_eq_some_iff.1 h
  exact List.idxOf_lt_length_of_mem hmem

theorem isHex_iff {c : Char} : isHex c = true ↔ c.toLower ∈ hexDigits := by
  rw [isHex, Option.isSome_iff_exists]
  constructor
  · rintro ⟨n, hn⟩
    exact (hexValue?_eq_some_iff.1 hn).1
  · exact fun h => ⟨_, hexValue?_eq_some_iff.2 ⟨h, rfl⟩⟩

/-- A text passes the check for one to so many digits if it is that. -/
theorem hexRow_iff {maxLength : Nat} {text : List Char} :
    (!text.isEmpty && text.length ≤ maxLength && text.all isHex) = true ↔
      1 ≤ text.length ∧ text.length ≤ maxLength ∧ ∀ c ∈ text, c.toLower ∈ hexDigits := by
  have hpos : (!text.isEmpty) = true ↔ 1 ≤ text.length := by
    show _ ↔ 0 < text.length
    rw [Bool.not_eq_true', List.isEmpty_eq_false_iff, List.length_pos_iff]
  simp only [Bool.and_eq_true, hpos, decide_eq_true_eq, List.all_eq_true, isHex_iff, and_assoc]

/-! ## Numbers -/

/-- The number that a row of digits denotes by their places. -/
def hexNumber (digits : List Char) : Nat :=
  Nat.ofDigits 16 (digits.reverse.map fun c => hexDigits.idxOf c.toLower)

theorem natOfHex_eq_hexNumber {digits : List Char} (h : ∀ c ∈ digits, c.toLower ∈ hexDigits) :
    natOfHex digits = hexNumber digits := by
  have hvalues : digits.map (fun c => (hexValue? c).getD 0) =
      digits.map fun c => hexDigits.idxOf c.toLower := by
    refine List.map_congr_left fun c hc => ?_
    rw [hexValue?_eq_some_iff.2 ⟨h c hc, rfl⟩]
    rfl
  calc natOfHex digits
      = (digits.map fun c => (hexValue? c).getD 0).foldl (fun n d => 16 * n + d) 0 := by
        rw [List.foldl_map]
        rfl
    _ = hexNumber digits := by
        rw [hvalues, hexNumber, List.map_reverse, Nat.ofDigits_eq_foldr, List.foldr_reverse]
        simp only [Nat.cast_id, Nat.add_comm]

theorem hexNumber_lt {digits : List Char} (h : ∀ c ∈ digits, c.toLower ∈ hexDigits) :
    hexNumber digits < 16 ^ digits.length := by
  have hdigits : ∀ d ∈ digits.reverse.map fun c => hexDigits.idxOf c.toLower, d < 16 := by
    intro d hd
    obtain ⟨c, hc, rfl⟩ := List.mem_map.1 hd
    exact List.idxOf_lt_length_of_mem (h c (List.mem_reverse.1 hc))
  calc hexNumber digits < 16 ^ (digits.reverse.map _).length :=
        Nat.ofDigits_lt_base_pow_length (by decide) hdigits
    _ = 16 ^ digits.length := by rw [List.length_map, List.length_reverse]

/-- A digit in front counts by its place. -/
theorem hexNumber_cons (c : Char) (rest : List Char) :
    hexNumber (c :: rest) = hexDigits.idxOf c.toLower * 16 ^ rest.length + hexNumber rest := by
  unfold hexNumber
  rw [List.reverse_cons, List.map_append, Nat.ofDigits_append, List.length_map,
    List.length_reverse]
  simp only [List.map_cons, List.map_nil, Nat.ofDigits_singleton]
  ring

/-- Zeros in front count for nothing. -/
theorem hexNumber_zeros_append (count : Nat) (digits : List Char) :
    hexNumber (List.replicate count '0' ++ digits) = hexNumber digits := by
  induction count with
  | zero => rfl
  | succ count ih =>
    have hzero : hexDigits.idxOf '0'.toLower = 0 := by decide
    rw [List.replicate_succ, List.cons_append, hexNumber_cons, hzero, Nat.zero_mul, Nat.zero_add,
      ih]

theorem toLower_of_mem_hexDigits {c : Char} (h : c ∈ hexDigits) : c.toLower = c := by
  have hall : hexDigits.all (fun d => d.toLower = d) = true := by decide
  exact of_decide_eq_true (List.all_eq_true.1 hall c h)

/-- Digits in lower case denote the same number. -/
theorem hexNumber_map_toLower {digits : List Char} (h : ∀ c ∈ digits, c.toLower ∈ hexDigits) :
    hexNumber (digits.map Char.toLower) = hexNumber digits := by
  unfold hexNumber
  rw [← List.map_reverse, List.map_map]
  congr 1
  refine List.map_congr_left fun c hc => ?_
  exact congrArg hexDigits.idxOf (toLower_of_mem_hexDigits (h c (List.mem_reverse.1 hc)))

/-! ## Rows of digits -/

theorem bytesOfHex?_pair {high low : Char} {rest : List Char} {bytes : List UInt8}
    (h : bytesOfHex? (high :: low :: rest) = some bytes) :
    ∃ m n more, hexValue? high = some m ∧ hexValue? low = some n
      ∧ bytesOfHex? rest = some more ∧ bytes = UInt8.ofNat (16 * m + n) :: more := by
  simp only [bytesOfHex?, Option.bind_eq_bind, Option.bind_eq_some_iff] at h
  obtain ⟨m, hm, n, hn, more, hmore, h⟩ := h
  exact ⟨m, n, more, hm, hn, hmore, (Option.some.inj h).symm⟩

/-- Two digits make a byte. -/
theorem length_of_bytesOfHex? {digits : List Char} {bytes : List UInt8}
    (h : bytesOfHex? digits = some bytes) : digits.length = 2 * bytes.length := by
  fun_induction bytesOfHex? digits generalizing bytes with
  | case1 =>
    cases h
    rfl
  | case2 => cases h
  | case3 high low rest ih =>
    obtain ⟨m, n, more, -, -, hmore, rfl⟩ := bytesOfHex?_pair h
    have hlength := ih hmore
    simp only [List.length_cons]
    omega

/-- A text is read if and only if it is an even row of digits. -/
theorem bytesOfHex?_isSome_iff {text : List Char} :
    (bytesOfHex? text).isSome = true ↔
      text.length % 2 = 0 ∧ ∀ c ∈ text, isHex c = true := by
  fun_induction bytesOfHex? text with
  | case1 => simp
  | case2 => simp
  | case3 high low rest ih =>
    constructor
    · intro h
      obtain ⟨bytes, hb⟩ := Option.isSome_iff_exists.1 h
      obtain ⟨m, n, more, hm, hn, hmore, -⟩ := bytesOfHex?_pair hb
      obtain ⟨heven, hhex⟩ := ih.1 (by rw [hmore]; rfl)
      refine ⟨?_, ?_⟩
      · rw [List.length_cons, List.length_cons]
        omega
      · intro c hc
        rcases List.mem_cons.1 hc with rfl | hc
        · rw [isHex, hm]
          rfl
        · rcases List.mem_cons.1 hc with rfl | hc
          · rw [isHex, hn]
            rfl
          · exact hhex c hc
    · rintro ⟨heven, hhex⟩
      rw [List.length_cons, List.length_cons] at heven
      obtain ⟨m, hm⟩ := Option.isSome_iff_exists.1 (hhex high List.mem_cons_self)
      obtain ⟨n, hn⟩ :=
        Option.isSome_iff_exists.1 (hhex low (List.mem_cons_of_mem _ List.mem_cons_self))
      have hrest : (bytesOfHex? rest).isSome = true := by
        refine ih.2 ⟨by omega, ?_⟩
        intro c hc
        exact hhex c (List.mem_cons_of_mem _ (List.mem_cons_of_mem _ hc))
      obtain ⟨more, hmore⟩ := Option.isSome_iff_exists.1 hrest
      simp [hm, hn, hmore]

/-! ## Bytes as numbers -/

/-- The number that bytes denote by their places, the highest first. -/
def byteNumber (bytes : List UInt8) : Nat := Nat.ofDigits 256 (bytes.reverse.map UInt8.toNat)

/-- A byte in front counts by its place. -/
theorem byteNumber_cons (b : UInt8) (rest : List UInt8) :
    byteNumber (b :: rest) = b.toNat * 256 ^ rest.length + byteNumber rest := by
  unfold byteNumber
  rw [List.reverse_cons, List.map_append, Nat.ofDigits_append, List.length_map,
    List.length_reverse]
  simp only [List.map_cons, List.map_nil, Nat.ofDigits_singleton]
  ring

/-- As many bytes that denote the same number are the same. -/
theorem eq_of_byteNumber_eq {a b : List UInt8} (hlength : a.length = b.length)
    (h : byteNumber a = byteNumber b) : a = b := by
  have hbyte : ∀ (bytes : List UInt8), ∀ d ∈ bytes.reverse.map UInt8.toNat, d < 256 := by
    intro bytes d hd
    obtain ⟨byte, -, rfl⟩ := List.mem_map.1 hd
    exact byte.toNat_lt
  have hlength' : (a.reverse.map UInt8.toNat).length = (b.reverse.map UInt8.toNat).length := by
    simpa using hlength
  have hdigits : a.reverse.map UInt8.toNat = b.reverse.map UInt8.toNat :=
    Nat.ofDigits_inj_of_len_eq (by decide) hlength' (hbyte a) (hbyte b) h
  exact List.reverse_inj.1 ((List.map_inj_right fun _ _ => UInt8.toNat_inj.1).1 hdigits)

/-- The bytes that are read from digits denote the number of the digits. -/
theorem byteNumber_of_bytesOfHex? {digits : List Char} {bytes : List UInt8}
    (h : bytesOfHex? digits = some bytes) : byteNumber bytes = hexNumber digits := by
  fun_induction bytesOfHex? digits generalizing bytes with
  | case1 =>
    cases h
    rfl
  | case2 => cases h
  | case3 high low rest ih =>
    obtain ⟨m, n, more, hm, hn, hmore, rfl⟩ := bytesOfHex?_pair h
    obtain ⟨-, hhigh⟩ := hexValue?_eq_some_iff.1 hm
    obtain ⟨-, hlow⟩ := hexValue?_eq_some_iff.1 hn
    have hm16 := lt_of_hexValue? hm
    have hn16 := lt_of_hexValue? hn
    have hbyte : (UInt8.ofNat (16 * m + n)).toNat = 16 * m + n :=
      UInt8.toNat_ofNat_of_lt' (show 16 * m + n < 256 by omega)
    -- two digits have the place of one byte
    have hplace : 16 ^ rest.length = 256 ^ more.length := by
      rw [length_of_bytesOfHex? hmore, Nat.pow_mul]
    rw [byteNumber_cons, hexNumber_cons, hexNumber_cons, hhigh, hlow, ih hmore, hbyte,
      List.length_cons, Nat.pow_succ, hplace]
    ring

end SpanCourier
