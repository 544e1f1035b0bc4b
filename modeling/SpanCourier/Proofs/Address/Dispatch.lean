import SpanCourier.Address.Dispatch
import SpanCourier.Proofs.Address.Dotted
import SpanCourier.Proofs.Address.InPlace

set_option autoImplicit false

/-! # Reading any address in place never slips

What the reader in place makes of the bytes of a text is what reading its characters gives, and no
step of it goes outside of the text or of an array or past a word
(`Address.InPlace.read_utf8Chars`).
The reader of octets holds what the reader of characters holds, with the octets in the first of four
cells (`IPv4.InPlace.progress`): one step of the one is one step of the other
(`IPv4.InPlace.foldlM_step_progress`), because there are three octets at most, the value is at most
255 before a digit is added, and there are three digits at most (`IPv4.Scan.Within`).
-/

namespace SpanCourier

namespace Reading

variable {α β : Type}

@[simp] theorem ok_bind (a : α) (f : α → Reading β) : (.ok a : Reading α) >>= f = f a := rfl

/-! ## The last of some bytes -/

theorem findLast_eq_none {sep : UInt8} {bytes : List UInt8} (h : sep ∉ bytes) :
    findLast sep bytes = none := by
  induction bytes with
  | nil => rfl
  | cons b rest ih =>
    rw [List.mem_cons, not_or] at h
    rw [findLast, ih h.2]
    exact if_neg (Ne.symm h.1)

theorem findLast_append_cons {sep : UInt8} (front : List UInt8) {back : List UInt8}
    (h : sep ∉ back) : findLast sep (front ++ sep :: back) = some front.length := by
  induction front with
  | nil => simp [findLast, findLast_eq_none h]
  | cons b front ih => simp [findLast, ih]

/-! ## Lower case -/

theorem lowerByte_of_le {b : UInt8} (h : 128 ≤ b.toNat) : lowerByte b = b := by
  refine if_neg fun hb => ?_
  have hle : b.toNat ≤ 0x5A := UInt8.le_iff_toNat_le.1 hb.2
  omega

/-- The letters of a text are brought to lower case byte by byte. -/
theorem map_lowerByte_utf8Chars (text : List Char) :
    (utf8Chars text).map lowerByte = utf8Chars (text.map Char.toLower) := by
  have hall : ∀ m : Fin 128, lowerByte (asciiByte (Char.ofNat m)) =
      asciiByte (Char.ofNat m).toLower ∧ (Char.ofNat m).toLower.toNat < 128 := by
    decide +kernel
  induction text with
  | nil => rfl
  | cons c rest ih =>
    rw [List.map_cons, utf8Chars_cons, utf8Chars_cons, List.map_append, ih]
    congr 1
    by_cases hlt : c.toNat < 128
    · obtain ⟨hbyte, hlower⟩ := hall ⟨c.toNat, hlt⟩
      rw [Char.ofNat_toNat] at hbyte hlower
      rw [utf8EncodeChar_of_lt hlt, utf8EncodeChar_of_lt hlower, List.map_singleton, hbyte]
    · -- no other character is a letter to be changed, and neither are its bytes
      have hle := Nat.le_of_not_lt hlt
      have hlower : c.toLower = c := by
        refine dif_neg fun hupper => hlt ?_
        exact Nat.lt_of_le_of_lt hupper.2 (by decide)
      rw [hlower]
      calc (String.utf8EncodeChar c).map lowerByte
          = (String.utf8EncodeChar c).map id :=
            List.map_congr_left fun b hb => lowerByte_of_le (le_of_mem_utf8EncodeChar hle hb)
        _ = String.utf8EncodeChar c := List.map_id _

end Reading

open Reading

namespace IPv4

/-- Three octets, an octet's value and an octet's digits are all that the reader ever holds. -/
structure Scan.Within (s : Scan) : Prop where
  octets : s.octets.length ≤ 3
  value : s.value ≤ 255
  digits : s.digits ≤ 3

theorem Begins.within {text : List Char} {octets : List (List Char)} {digits : List Char}
    (h : Begins text octets digits) : (held octets digits).Within := by
  refine ⟨?_, h.front.number_le, h.front.length_le⟩
  rw [held, List.length_map]
  exact h.length_le

namespace InPlace

/-! ## Octets -/

/-- What the reader in place holds: the octets in the first cells. -/
def progress (s : Scan) : Progress where
  cells := s.octets ++ List.replicate (4 - s.octets.length) 0
  filled := s.octets.length
  value := s.value
  digits := s.digits

/-- The octet at hand goes to the first free cell. -/
theorem write_progress {s : Scan} (h : s.octets.length ≤ 3) (octet : UInt8) :
    write (progress s).cells s.octets.length octet =
      .ok (s.octets ++ [octet] ++ List.replicate (4 - (s.octets ++ [octet]).length) 0) := by
  obtain ⟨free, hfree⟩ : ∃ free, 4 - s.octets.length = free + 1 :=
    ⟨3 - s.octets.length, by omega⟩
  have hrest : 4 - (s.octets ++ [octet]).length = free := by
    rw [List.length_append, List.length_singleton]
    omega
  rw [progress, hfree, hrest, List.replicate_succ, write_append, List.append_assoc]
  rfl

theorem dot_progress {s : Scan} (h : s.Within) :
    (progress s).dot = ofOption (s.dot?.map progress) := by
  rw [Progress.dot, Scan.dot?]
  by_cases hend : s.digits = 0 ∨ s.octets.length = 3
  · rw [if_pos hend]
    exact if_pos hend
  · have hfilled := h.octets
    rw [if_neg hend]
    refine (if_neg hend).trans ?_
    show (write (progress s).cells s.octets.length (UInt8.ofNat s.value) >>= fun cells =>
      inWord UInt64.size (s.octets.length + 1) >>= fun filled =>
        .ok ({ cells, filled } : Progress)) = _
    rw [write_progress hfilled, ok_bind, inWord_of_le (by omega), ok_bind, Option.map_some,
      ofOption_some, progress, List.length_append, List.length_singleton]

theorem digit_progress {s : Scan} (h : s.Within) {b : UInt8} (hlow : 0x30 ≤ b.toNat)
    (hhigh : b.toNat ≤ 0x39) :
    (progress s).digit b = ofOption ((s.digit? (b.toNat - 0x30)).map progress) := by
  rw [Progress.digit, Scan.digit?]
  by_cases hthree : s.digits = 3
  · have hstop : s.digits = 3 ∨ 255 < s.value * 10 + (b.toNat - 0x30) := .inl hthree
    rw [if_pos hstop]
    exact if_pos hthree
  · have hvalue := h.value
    have hdigits := h.digits
    -- ten times the value and one digit more are below 2560
    have hword : UInt16.size = 65536 := rfl
    have hbyte : UInt8.size = 256 := rfl
    refine (if_neg hthree).trans ?_
    show (inWord UInt16.size (s.value * 10) >>= fun shifted =>
      minus b.toNat 0x30 >>= fun digit =>
        inWord UInt16.size (shifted + digit) >>= fun value =>
          if 255 < value then .error .refused
          else inWord UInt8.size (s.digits + 1) >>= fun digits =>
            .ok { progress s with value, digits }) = _
    rw [inWord_of_lt (by omega), ok_bind, minus, if_pos hlow, ok_bind, inWord_of_lt (by omega),
      ok_bind]
    by_cases hlarge : 255 < s.value * 10 + (b.toNat - 0x30)
    · rw [if_pos hlarge, if_pos (.inr hlarge)]
      rfl
    · rw [if_neg hlarge, if_neg (not_or.2 ⟨hthree, hlarge⟩), inWord_of_lt (by omega), ok_bind]
      rfl

theorem step_digit (p : Progress) {b : UInt8} (hlow : 0x30 ≤ b.toNat) (hhigh : b.toNat ≤ 0x39) :
    p.step b = p.digit b :=
  if_pos ⟨UInt8.le_iff_toNat_le.2 hlow, UInt8.le_iff_toNat_le.2 hhigh⟩

theorem step_other (p : Progress) {b : UInt8} (hdigit : ¬ (0x30 ≤ b.toNat ∧ b.toNat ≤ 0x39))
    (hdot : b ≠ 0x2E) : p.step b = .error .refused := by
  have hrange : ¬ (0x30 ≤ b ∧ b ≤ 0x39) := by
    rwa [UInt8.le_iff_toNat_le, UInt8.le_iff_toNat_le]
  rw [Progress.step, if_neg hrange, if_neg hdot]

/-- One step over the bytes of a character is one step over the character. -/
theorem foldlM_step_progress {s : Scan} (h : s.Within) (c : Char) :
    (String.utf8EncodeChar c).foldlM Progress.step (progress s) =
      ofOption ((s.step? c).map progress) := by
  by_cases hlt : c.toNat < 128
  · have hb := toNat_asciiByte hlt
    rw [utf8EncodeChar_of_lt hlt, List.foldlM_cons]
    simp only [List.foldlM_nil, bind_pure]
    by_cases hdot : c = '.'
    · subst hdot
      rw [step?_dot]
      exact dot_progress h
    · by_cases hc : c ∈ decimalDigits
      · obtain ⟨hlow, hhigh⟩ : 0x30 ≤ c.toNat ∧ c.toNat ≤ 0x39 := mem_decimalDigits_iff.1 hc
        rw [← hb] at hlow hhigh
        rw [step_digit _ hlow hhigh, digit_progress h hlow hhigh, step?_digit s hc,
          ← decimalValue_eq hc, hb]
        rfl
      · have hdigit : ¬ (0x30 ≤ (asciiByte c).toNat ∧ (asciiByte c).toNat ≤ 0x39) := by
          rw [hb]
          exact mt mem_decimalDigits_iff.2 hc
        have hbyte : asciiByte c ≠ 0x2E := by
          intro he
          rw [← UInt8.toNat_inj, hb] at he
          exact hdot (Char.toNat_inj.1 he)
        rw [step_other _ hdigit hbyte, step?_other s hdot hc]
        rfl
  · -- the first byte of any other character is refused
    have hle := Nat.le_of_not_lt hlt
    have hdot : c ≠ '.' := by
      rintro rfl
      exact hlt (by decide)
    obtain ⟨lead, rest, he, hlead, -⟩ := utf8EncodeChar_of_le hle
    have hbyte : lead ≠ 0x2E := by
      rintro rfl
      exact absurd hlead (by decide)
    rw [he, List.foldlM_cons, step_other _ (by omega) hbyte,
      step?_other s hdot (mt toNat_lt_of_mem_decimalDigits hlt)]
    rfl

/-- The reader in place goes through the bytes of a text as the other goes through its
characters. -/
theorem foldlM_utf8Chars (text : List Char) :
    (utf8Chars text).foldlM Progress.step {} =
      ofOption ((text.foldlM Scan.step? {}).map progress) := by
  induction text using List.reverseRec with
  | nil => rfl
  | append_singleton text c ih =>
    rw [utf8Chars_append, List.foldlM_append, List.foldlM_append, ih]
    cases hread : text.foldlM Scan.step? {} with
    | none => rfl
    | some s =>
      obtain ⟨octets, digits, hbegins, rfl⟩ := foldlM_step?_eq_some_iff.1 hread
      rw [utf8Chars_cons, utf8Chars_nil, List.append_nil]
      refine (foldlM_step_progress hbegins.within c).trans ?_
      simp

theorem finish_progress {s : Scan} (h : s.Within) :
    (progress s).finish = ofOption (s.finish?.map IPv4.octets) := by
  rw [Progress.finish, Scan.finish?]
  by_cases hend : s.digits ≠ 0 ∧ s.octets.length = 3
  · have hgo : ¬ ((progress s).digits = 0 ∨ (progress s).filled ≠ 3) := by
      rw [not_or, Decidable.not_not]
      exact hend
    have hwrite := write_progress h.octets (UInt8.ofNat s.value)
    have hfull : (s.octets ++ [UInt8.ofNat s.value]).length = 4 := by
      rw [List.length_append, hend.2, List.length_singleton]
    rw [hend.2, hfull, Nat.sub_self, List.replicate_zero, List.append_nil] at hwrite
    rw [if_neg hgo, dif_pos hend]
    exact hwrite
  · have hstop : (progress s).digits = 0 ∨ (progress s).filled ≠ 3 := by
      rw [not_and_or, Decidable.not_not] at hend
      exact hend
    rw [if_pos hstop, dif_neg hend]
    rfl

/-- An address is read from the bytes of a text as it is from its characters. -/
theorem read_utf8Chars (text : List Char) :
    read (utf8Chars text) = ofOption ((ofChars? text).map IPv4.octets) := by
  rw [read, foldlM_utf8Chars, ofChars?]
  cases hread : text.foldlM Scan.step? {} with
  | none => rfl
  | some s =>
    obtain ⟨octets, digits, hbegins, rfl⟩ := foldlM_step?_eq_some_iff.1 hread
    exact finish_progress hbegins.within

end InPlace

end IPv4

namespace Address.InPlace

/-! ## Addresses of either kind -/

theorem dot_lt : '.'.toNat < 128 := by decide

/-- The bytes up to a cut are the mapped prefix in any letter case if the characters are. -/
theorem map_lowerByte_eq_iff {front : List Char} :
    (utf8Chars front).map lowerByte = mappedHead.map lowerByte ↔
      front.map Char.toLower = Address.mappedHead := by
  have hhead : mappedHead.map lowerByte = utf8Chars Address.mappedHead := by decide +kernel
  rw [map_lowerByte_utf8Chars, hhead, utf8Chars_inj]

/-- The bytes of a text are cut behind the last colon where the text is. -/
theorem dotted_utf8Chars (text : List Char) :
    dotted (utf8Chars text) = ofOption ((dotted? text).map utf8Chars) := by
  have hcolon : ∀ {chars : List Char}, ':' ∉ chars → IPv6.InPlace.colon ∉ utf8Chars chars :=
    fun h => mt (asciiByte_mem_utf8Chars_iff IPv6.InPlace.colon_lt).1 h
  rw [dotted, dotted?]
  cases hcut : splitLast ':' text with
  | none =>
    rw [findLast_eq_none (hcolon (splitLast_eq_none_iff.1 hcut))]
    rfl
  | some pair =>
    obtain ⟨front, back⟩ := pair
    obtain ⟨⟨start, rfl⟩, hback⟩ := eq_concat_of_splitLast hcut
    have hbytes : utf8Chars text =
        utf8Chars start ++ IPv6.InPlace.colon :: utf8Chars back := by
      rw [← splitLast_append hcut, utf8Chars_append, utf8Chars_append, List.append_assoc]
      rfl
    have hfront : utf8Chars (start ++ [':']) = utf8Chars start ++ [IPv6.InPlace.colon] :=
      utf8Chars_append ..
    have hplace : (utf8Chars start).length + 1 = (utf8Chars (start ++ [':'])).length := by
      rw [hfront, List.length_append, List.length_singleton]
    have htext : utf8Chars text = utf8Chars (start ++ [':']) ++ utf8Chars back := by
      rw [hbytes, hfront, List.append_assoc, List.singleton_append]
    have hfind : findLast IPv6.InPlace.colon (utf8Chars text) = some (utf8Chars start).length := by
      rw [hbytes]
      exact findLast_append_cons _ (hcolon hback)
    rw [hfind]
    show (textBefore (utf8Chars text) ((utf8Chars start).length + 1) >>= fun head =>
      if head.map lowerByte ≠ mappedHead.map lowerByte then .error .refused
      else textFrom (utf8Chars text) ((utf8Chars start).length + 1)) = _
    rw [hplace, htext, textBefore_utf8Chars, textFrom_utf8Chars, ok_bind]
    by_cases hmapped : (start ++ [':']).map Char.toLower = Address.mappedHead
    · rw [if_neg (not_not.2 (map_lowerByte_eq_iff.2 hmapped))]
      dsimp only
      rw [if_pos hmapped, Option.map_some, ofOption_some]
    · rw [if_pos (mt map_lowerByte_eq_iff.1 hmapped)]
      dsimp only
      rw [if_neg hmapped, Option.map_none, ofOption_none]

/-- An address of either kind is read from the bytes of a text as it is from its characters. -/
theorem read_utf8Chars (text : List Char) :
    read (utf8Chars text) = ofOption ((Address.ofChars? text).map raw) := by
  rw [read]
  by_cases hnil : text = []
  · subst hnil
    rfl
  · have hdot : dot ∈ utf8Chars text ↔ '.' ∈ text := asciiByte_mem_utf8Chars_iff dot_lt
    rw [if_neg (mt utf8Chars_eq_nil_iff.1 hnil)]
    by_cases hmem : '.' ∈ text
    · rw [if_pos (hdot.2 hmem), ofChars?_of_dot hmem, dotted_utf8Chars]
      cases dotted? text with
      | none => rfl
      | some rest =>
        show (IPv4.InPlace.read (utf8Chars rest) >>= fun octets => .ok (.v4 octets)) =
          ofOption (((IPv4.ofChars? rest).map v4).map raw)
        rw [IPv4.InPlace.read_utf8Chars]
        cases IPv4.ofChars? rest <;> rfl
    · rw [if_neg (mt hdot.1 hmem), ofChars?_of_no_dot hmem, IPv6.InPlace.read_utf8Chars]
      cases IPv6.ofChars? text <;> rfl

/-- A text is read as an IPv4 address exactly if it spells one, with the octets in their order, as
an IPv6 address exactly if it has no dot and is read as one, and else not at all. The reader in
place makes the same of the bytes of the text. Neither it nor its pass over the octets, whatever
text that is given, ever slips. -/
theorem addresses_told_apart (text : String) :
    (∀ address : IPv4, Address.ofChars? text.toList = some (.v4 address) ↔
        SpellsV4 text.toList address.octets)
      ∧ (∀ address : IPv6, Address.ofChars? text.toList = some (.v6 address) ↔
        '.' ∉ text.toList ∧ IPv6.ofChars? text.toList = some address)
      ∧ (Address.ofChars? text.toList = none ↔
        (∀ octets, ¬ SpellsV4 text.toList octets)
          ∧ ¬ ('.' ∉ text.toList ∧ (IPv6.ofChars? text.toList).isSome))
      ∧ read (utf8 text) = ofOption ((Address.ofChars? text.toList).map raw)
      ∧ IPv4.InPlace.read (utf8 text) = ofOption ((IPv4.ofChars? text.toList).map IPv4.octets)
      ∧ (read (utf8 text) ≠ .error .outside ∧ read (utf8 text) ≠ .error .overflow)
      ∧ IPv4.InPlace.read (utf8 text) ≠ .error .outside
      ∧ IPv4.InPlace.read (utf8 text) ≠ .error .overflow := by
  rw [utf8_eq, read_utf8Chars, IPv4.InPlace.read_utf8Chars]
  have refused : ∀ {α : Type} {read : Option α} {slip : Stop}, slip ≠ .refused →
      ofOption read ≠ .error slip :=
    fun hslip h => hslip (refused_of_ofOption h)
  exact ⟨fun _ => ofChars?_eq_v4_iff, fun _ => ofChars?_eq_v6_iff, ofChars?_eq_none_iff, rfl, rfl,
    ⟨refused (by decide), refused (by decide)⟩, refused (by decide), refused (by decide)⟩

end Address.InPlace

end SpanCourier
