import Mathlib.Data.List.Induction
import SpanCourier.Address.Basic
import SpanCourier.Proofs.Text.Decimal
import SpanCourier.Proofs.Text.Split

set_option autoImplicit false

/-! # The grammar of IPv4 addresses

An octet is one to three decimal digits that denote a number below 256, leading zeros allowed. A
text spells an IPv4 address if it is four octets with a dot between each two (`IPv4.Spells`).

The reader goes over a text once. What it holds after some characters (`IPv4.Scan`) is determined by
how they begin an address: some octets with a dot behind each, and the digits of one more
(`IPv4.Begins`). One step of the reader takes one such beginning to the next one
(`IPv4.Begins.step`, `IPv4.Begins.exists_step`), so the reader gets through a text exactly if the
text begins an address (`IPv4.foldlM_step?_eq_some_iff`), and reads it if the octet at hand is the
fourth (`IPv4.ofChars?_eq_some_iff`).

An address of either kind is then told by the dot (`Address.ofChars?_eq_v4_iff`,
`Address.ofChars?_eq_v6_iff`).
-/

namespace SpanCourier

namespace IPv4

/-! ## Octets -/

/-- Decimal digits with which an octet may begin: three at most, of a number below 256. -/
structure IsOctetFront (digits : List Char) : Prop where
  length_le : digits.length ≤ 3
  decimal : ∀ c ∈ digits, c ∈ decimalDigits
  number_le : decimalNumber digits ≤ 255

/-- One to three decimal digits that denote a number below 256. -/
def IsOctet (digits : List Char) : Prop := digits ≠ [] ∧ IsOctetFront digits

theorem isOctetFront_nil : IsOctetFront [] := ⟨by decide, List.forall_mem_nil _, by decide⟩

/-- A digit more begins an octet too, unless it is the fourth or takes the number past 255. -/
theorem isOctetFront_concat_iff {digits : List Char} {c : Char} :
    IsOctetFront (digits ++ [c]) ↔
      IsOctetFront digits ∧ digits.length ≠ 3 ∧ c ∈ decimalDigits
        ∧ decimalNumber digits * 10 + decimalDigits.idxOf c ≤ 255 := by
  constructor
  · rintro ⟨hlength, hdecimal, hnumber⟩
    rw [List.length_append, List.length_singleton] at hlength
    rw [decimalNumber_concat] at hnumber
    have hfront : ∀ d ∈ digits, d ∈ decimalDigits := fun d hd => hdecimal d (by simp [hd])
    refine ⟨⟨by omega, hfront, by omega⟩, by omega, hdecimal c (by simp), hnumber⟩
  · rintro ⟨⟨hlength, hdecimal, -⟩, hthree, hc, hnumber⟩
    refine ⟨?_, ?_, ?_⟩
    · rw [List.length_append, List.length_singleton]
      omega
    · intro d hd
      rcases List.mem_append.1 hd with hd | hd
      · exact hdecimal d hd
      · rwa [List.mem_singleton.1 hd]
    · rwa [decimalNumber_concat]

theorem IsOctetFront.notMem {digits : List Char} (h : IsOctetFront digits) {c : Char}
    (hc : c ∉ decimalDigits) : c ∉ digits := fun hmem => hc (h.decimal c hmem)

theorem IsOctetFront.toNat_ofNat {digits : List Char} (h : IsOctetFront digits) :
    (UInt8.ofNat (decimalNumber digits)).toNat = decimalNumber digits :=
  UInt8.toNat_ofNat_of_lt' (Nat.lt_succ_of_le h.number_le)

/-! ## The beginning of an address -/

/-- Some octets, a dot behind each, and then digits. -/
def dotted (octets : List (List Char)) (digits : List Char) : List Char :=
  octets.flatMap (· ++ ['.']) ++ digits

theorem dotted_concat_dot (octets : List (List Char)) (digits : List Char) :
    dotted octets digits ++ ['.'] = dotted (octets ++ [digits]) [] := by
  simp [dotted]

theorem dotted_concat_digit (octets : List (List Char)) (digits : List Char) (c : Char) :
    dotted octets digits ++ [c] = dotted octets (digits ++ [c]) :=
  List.append_assoc ..

/-- What the reader holds of octets and the digits behind their dots. -/
def held (octets : List (List Char)) (digits : List Char) : Scan where
  octets := octets.map fun octet => UInt8.ofNat (decimalNumber octet)
  value := decimalNumber digits
  digits := digits.length

/-- The text begins an address: it is three octets at most, a dot behind each, and then digits with
which an octet may begin. -/
structure Begins (text : List Char) (octets : List (List Char)) (digits : List Char) : Prop where
  text_eq : text = dotted octets digits
  isOctet : ∀ octet ∈ octets, IsOctet octet
  length_le : octets.length ≤ 3
  front : IsOctetFront digits

/-- A dot is taken behind an octet that has a digit and is not the fourth. -/
theorem dot?_held (octets : List (List Char)) (digits : List Char) :
    (held octets digits).dot? =
      if digits = [] ∨ octets.length = 3 then none else some (held (octets ++ [digits]) []) := by
  simp [Scan.dot?, held]

/-- A digit is taken unless it is the fourth or takes the octet past 255. -/
theorem digit?_held (octets : List (List Char)) (digits : List Char) (c : Char) :
    (held octets digits).digit? (decimalDigits.idxOf c) =
      if digits.length = 3 ∨ 255 < decimalNumber digits * 10 + decimalDigits.idxOf c then none
      else some (held octets (digits ++ [c])) := by
  simp only [held, decimalNumber_concat, List.length_append, List.length_singleton]
  rfl

theorem step?_dot (s : Scan) : s.step? '.' = s.dot? := if_pos rfl

theorem step?_digit (s : Scan) {c : Char} (h : c ∈ decimalDigits) :
    s.step? c = s.digit? (decimalDigits.idxOf c) := by
  have hdot : c ≠ '.' := by
    rintro rfl
    exact absurd h (by decide)
  rw [Scan.step?, if_neg hdot, if_pos (mem_decimalDigits_iff.1 h), decimalValue_eq h]

theorem step?_other (s : Scan) {c : Char} (hdot : c ≠ '.') (h : c ∉ decimalDigits) :
    s.step? c = none := by
  rw [Scan.step?, if_neg hdot, if_neg (mt mem_decimalDigits_iff.2 h)]

/-- One step of the reader takes a beginning to a beginning. -/
theorem Begins.step {text : List Char} {octets : List (List Char)} {digits : List Char} {c : Char}
    {s : Scan} (h : Begins text octets digits) (hs : (held octets digits).step? c = some s) :
    ∃ octets' digits', Begins (text ++ [c]) octets' digits' ∧ s = held octets' digits' := by
  obtain ⟨rfl, hoctets, hlength, hfront⟩ := h
  by_cases hdot : c = '.'
  · subst hdot
    rw [step?_dot, dot?_held] at hs
    split at hs
    · cases hs
    · next hfree =>
      obtain ⟨hne, hthree⟩ := not_or.1 hfree
      refine ⟨octets ++ [digits], [], ⟨dotted_concat_dot .., ?_, ?_, isOctetFront_nil⟩,
        (Option.some.inj hs).symm⟩
      · exact List.forall_mem_append.2 ⟨hoctets, List.forall_mem_singleton.2 ⟨hne, hfront⟩⟩
      · rw [List.length_append, List.length_singleton]
        omega
  · by_cases hc : c ∈ decimalDigits
    · rw [step?_digit _ hc, digit?_held] at hs
      split at hs
      · cases hs
      · next hfree =>
        obtain ⟨hthree, hnumber⟩ := not_or.1 hfree
        refine ⟨octets, digits ++ [c], ⟨dotted_concat_digit .., hoctets, hlength, ?_⟩,
          (Option.some.inj hs).symm⟩
        exact isOctetFront_concat_iff.2 ⟨hfront, hthree, hc, Nat.not_lt.1 hnumber⟩
    · rw [step?_other _ hdot hc] at hs
      cases hs

/-- A beginning with one character more is what one step of the reader takes a beginning to. -/
theorem Begins.exists_step {text : List Char} {octets : List (List Char)} {digits : List Char}
    {c : Char} (h : Begins (text ++ [c]) octets digits) :
    ∃ octets' digits', Begins text octets' digits'
      ∧ (held octets' digits').step? c = some (held octets digits) := by
  obtain ⟨htext, hoctets, hlength, hfront⟩ := h
  rcases List.eq_nil_or_concat digits with rfl | ⟨front, d, rfl⟩
  · rcases List.eq_nil_or_concat octets with rfl | ⟨first, last, rfl⟩
    · simp [dotted] at htext
    · -- the character is the dot behind the last octet
      rw [List.concat_eq_append] at htext hoctets hlength ⊢
      rw [← dotted_concat_dot] at htext
      obtain ⟨rfl, hc⟩ := List.append_inj' htext rfl
      obtain rfl := List.singleton_inj.1 hc
      rw [List.length_append, List.length_singleton] at hlength
      obtain ⟨hne, hlast⟩ := hoctets last (by simp)
      refine ⟨first, last, ⟨rfl, fun octet hmem => hoctets octet (by simp [hmem]), by omega, hlast⟩,
        ?_⟩
      rw [step?_dot, dot?_held, if_neg (not_or.2 ⟨hne, by omega⟩)]
  · -- the character is the last digit
    rw [List.concat_eq_append] at htext hfront ⊢
    rw [← dotted_concat_digit] at htext
    obtain ⟨rfl, hc⟩ := List.append_inj' htext rfl
    obtain rfl := List.singleton_inj.1 hc
    obtain ⟨hfront, hthree, hc, hnumber⟩ := isOctetFront_concat_iff.1 hfront
    refine ⟨octets, front, ⟨rfl, hoctets, hlength, hfront⟩, ?_⟩
    rw [step?_digit _ hc, digit?_held, if_neg (not_or.2 ⟨hthree, Nat.not_lt.2 hnumber⟩)]

/-- The reader gets through a text exactly if the text begins an address. -/
theorem foldlM_step?_eq_some_iff {text : List Char} {s : Scan} :
    text.foldlM Scan.step? {} = some s ↔
      ∃ octets digits, Begins text octets digits ∧ s = held octets digits := by
  -- the reader goes on at the end of the text, so the induction is from there
  induction text using List.reverseRec generalizing s with
  | nil =>
    constructor
    · intro h
      exact ⟨[], [], ⟨rfl, List.forall_mem_nil _, by decide, isOctetFront_nil⟩,
        (Option.some.inj h).symm⟩
    · rintro ⟨octets, digits, hbegins, rfl⟩
      obtain ⟨hoctets, rfl⟩ := List.append_eq_nil_iff.1 hbegins.text_eq.symm
      obtain rfl : octets = [] := by simpa [← List.eq_nil_iff_forall_not_mem] using hoctets
      rfl
  | append_singleton text c ih =>
    rw [List.foldlM_append]
    simp only [Option.bind_eq_bind, Option.bind_eq_some_iff, ih, List.foldlM_cons,
      List.foldlM_nil]
    constructor
    · rintro ⟨_, ⟨octets, digits, hbegins, rfl⟩, _, hstep, h⟩
      obtain rfl := Option.some.inj h
      exact hbegins.step hstep
    · rintro ⟨octets, digits, hbegins, rfl⟩
      obtain ⟨octets', digits', hbegins', hstep⟩ := hbegins.exists_step
      exact ⟨_, ⟨octets', digits', hbegins', rfl⟩, _, hstep, rfl⟩

/-! ## Addresses -/

/-- The text is four octets with a dot between each two, and these are their values. -/
def Spells (text : List Char) (values : List UInt8) : Prop :=
  ∃ octets, octets.length = 4 ∧ (∀ octet ∈ octets, IsOctet octet) ∧ text = joinFields '.' octets
    ∧ values.map UInt8.toNat = octets.map decimalNumber

theorem octets_inj {a b : IPv4} (h : a.octets = b.octets) : a = b := by
  obtain ⟨octets, hlength⟩ := a
  obtain rfl : octets = b.octets := h
  rfl

/-- The octets with these values are held as these values. -/
theorem map_ofNat_eq_iff {octets : List (List Char)} (h : ∀ octet ∈ octets, IsOctet octet)
    {values : List UInt8} :
    octets.map (fun octet => UInt8.ofNat (decimalNumber octet)) = values ↔
      values.map UInt8.toNat = octets.map decimalNumber := by
  have hback : (octets.map fun octet => UInt8.ofNat (decimalNumber octet)).map UInt8.toNat =
      octets.map decimalNumber := by
    rw [List.map_map]
    exact List.map_congr_left fun octet hmem => (h octet hmem).2.toNat_ofNat
  rw [← hback, List.map_inj_right fun _ _ => UInt8.toNat_inj.1, eq_comm]

/-- The end of the text ends the fourth octet. -/
theorem finish?_held {octets : List (List Char)} {digits : List Char} {address : IPv4} :
    (held octets digits).finish? = some address ↔
      digits ≠ [] ∧ octets.length = 3
        ∧ (octets ++ [digits]).map (fun octet => UInt8.ofNat (decimalNumber octet)) =
            address.octets := by
  rw [Scan.finish?]
  by_cases hend : digits ≠ [] ∧ octets.length = 3
  · have hheld : (held octets digits).digits ≠ 0 ∧ (held octets digits).octets.length = 3 := by
      simpa [held] using hend
    rw [dif_pos hheld, Option.some.injEq, List.map_append]
    exact ⟨fun h => ⟨hend.1, hend.2, h ▸ rfl⟩, fun h => octets_inj h.2.2⟩
  · have hheld : ¬ ((held octets digits).digits ≠ 0 ∧ (held octets digits).octets.length = 3) := by
      simpa [held] using hend
    rw [dif_neg hheld]
    exact iff_of_false (fun h => Option.some_ne_none _ h.symm) fun h => hend ⟨h.1, h.2.1⟩

/-- A text is read as an address exactly if it spells its octets. -/
theorem ofChars?_eq_some_iff {text : List Char} {address : IPv4} :
    ofChars? text = some address ↔ Spells text address.octets := by
  rw [ofChars?, Option.bind_eq_bind, Option.bind_eq_some_iff]
  simp only [foldlM_step?_eq_some_iff]
  constructor
  · rintro ⟨_, ⟨octets, digits, hbegins, rfl⟩, hfinish⟩
    obtain ⟨hne, hthree, hvalues⟩ := finish?_held.1 hfinish
    have hall : ∀ octet ∈ octets ++ [digits], IsOctet octet :=
      List.forall_mem_append.2
        ⟨hbegins.isOctet, List.forall_mem_singleton.2 ⟨hne, hbegins.front⟩⟩
    refine ⟨octets ++ [digits], ?_, hall, ?_, (map_ofNat_eq_iff hall).1 hvalues⟩
    · rw [List.length_append, hthree, List.length_singleton]
    · rw [joinFields_concat]
      exact hbegins.text_eq
  · rintro ⟨octets, hfour, hall, rfl, hvalues⟩
    rcases List.eq_nil_or_concat octets with rfl | ⟨first, last, rfl⟩
    · cases hfour
    · rw [List.concat_eq_append] at hfour hall hvalues ⊢
      rw [List.length_append, List.length_singleton] at hfour
      obtain ⟨hne, hlast⟩ := hall last (by simp)
      refine ⟨_, ⟨first, last, ⟨?_, ?_, by omega, hlast⟩, rfl⟩, ?_⟩
      · exact joinFields_concat first last
      · exact fun octet hmem => hall octet (by simp [hmem])
      · exact finish?_held.2 ⟨hne, by omega, (map_ofNat_eq_iff hall).2 hvalues⟩

/-- Between the octets there are dots, and no colon is anywhere. -/
theorem Spells.mem {text : List Char} {values : List UInt8} (h : Spells text values) :
    '.' ∈ text ∧ ':' ∉ text := by
  obtain ⟨octets, hfour, hall, rfl, -⟩ := h
  rcases List.eq_nil_or_concat octets with rfl | ⟨first, last, rfl⟩
  · cases hfour
  · rw [List.concat_eq_append] at hfour hall ⊢
    rw [List.length_append, List.length_singleton] at hfour
    rw [joinFields_concat]
    constructor
    · obtain ⟨octet, more, rfl⟩ := List.exists_cons_of_ne_nil
        (List.ne_nil_of_length_pos (show 0 < first.length by omega))
      simp
    · have hcolon : ∀ octet ∈ first ++ [last], ':' ∉ octet := fun octet hmem =>
        (hall octet hmem).2.notMem (by decide)
      rw [List.mem_append, List.mem_flatMap]
      rintro (⟨octet, hmem, hc⟩ | hc)
      · rcases List.mem_append.1 hc with hc | hc
        · exact hcolon octet (by simp [hmem]) hc
        · exact absurd (List.mem_singleton.1 hc) (by decide)
      · exact hcolon last (by simp) hc

end IPv4

namespace Address

/-! ## Addresses of either kind -/

/-- The text spells an IPv4 address with these octets, alone or behind `::ffff:` in any letter
case. -/
def SpellsV4 (text : List Char) (octets : List UInt8) : Prop :=
  ∃ front back, text = front ++ back ∧ (front = [] ∨ front.map Char.toLower = "::ffff:".toList)
    ∧ IPv4.Spells back octets

/-- No letter is a colon in lower case. -/
theorem eq_colon_of_toLower {c : Char} (h : c.toLower = ':') : c = ':' := by
  have hall : ∀ m : Fin 128, (Char.ofNat m).toLower = ':' → Char.ofNat m = ':' := by
    decide +kernel
  by_cases hupper : c.val ≥ 'A'.val ∧ c.val ≤ 'Z'.val
  · have hlt : c.toNat < 128 := Nat.lt_of_le_of_lt hupper.2 (by decide)
    have hc := hall ⟨c.toNat, hlt⟩
    rw [Char.ofNat_toNat] at hc
    exact hc h
  · have hlower : c.toLower = c := dif_neg hupper
    rwa [hlower] at h

/-- The mapped prefix ends with a colon. -/
theorem eq_concat_of_mapped {front : List Char}
    (h : front.map Char.toLower = "::ffff:".toList) : ∃ start, front = start ++ [':'] := by
  rcases List.eq_nil_or_concat front with rfl | ⟨start, c, rfl⟩
  · cases h
  · rw [List.concat_eq_append, List.map_append] at h
    have hlast : [c.toLower] = [':'] :=
      (List.append_inj' (h.trans (show "::ffff:".toList = "::ffff".toList ++ [':'] from rfl)) rfl).2
    exact ⟨start, by rw [List.concat_eq_append, eq_colon_of_toLower (List.singleton_inj.1 hlast)]⟩

/-- The part of a dotted text that is to be an IPv4 address is what spells one. -/
theorem dotted?_bind_eq_some_iff {text : List Char} {address : IPv4} :
    (dotted? text).bind IPv4.ofChars? = some address ↔ SpellsV4 text address.octets := by
  rw [Option.bind_eq_some_iff]
  simp only [IPv4.ofChars?_eq_some_iff, dotted?]
  constructor
  · rintro ⟨back, hback, hspells⟩
    split at hback
    · obtain rfl := Option.some.inj hback
      exact ⟨[], text, rfl, .inl rfl, hspells⟩
    · next front back' hcut =>
      split at hback
      · next hmapped =>
        obtain rfl := Option.some.inj hback
        exact ⟨front, back', (splitLast_append hcut).symm, .inr hmapped, hspells⟩
      · cases hback
  · rintro ⟨front, back, rfl, hfront, hspells⟩
    refine ⟨back, ?_, hspells⟩
    rcases hfront with rfl | hmapped
    · rw [List.nil_append, splitLast_eq_none_iff.2 hspells.mem.2]
    · obtain ⟨start, rfl⟩ := eq_concat_of_mapped hmapped
      rw [List.append_assoc, List.singleton_append, splitLast_append_cons start hspells.mem.2]
      exact if_pos hmapped

theorem SpellsV4.length_eq {text : List Char} {octets : List UInt8} (h : SpellsV4 text octets) :
    octets.length = 4 := by
  obtain ⟨-, -, -, -, parts, hfour, -, -, hvalues⟩ := h
  rw [← hfour, ← List.length_map UInt8.toNat, hvalues, List.length_map]

/-- A text that spells an IPv4 address has a dot. -/
theorem SpellsV4.dot_mem {text : List Char} {octets : List UInt8} (h : SpellsV4 text octets) :
    '.' ∈ text := by
  obtain ⟨front, back, rfl, -, hspells⟩ := h
  exact List.mem_append_right _ hspells.mem.1

theorem ofChars?_of_dot {text : List Char} (h : '.' ∈ text) :
    ofChars? text = ((dotted? text).bind IPv4.ofChars?).map v4 := by
  rw [ofChars?, if_pos (List.contains_iff_mem.2 h)]
  cases dotted? text <;> rfl

theorem ofChars?_of_no_dot {text : List Char} (h : '.' ∉ text) :
    ofChars? text = (IPv6.ofChars? text).map v6 :=
  if_neg (mt List.contains_iff_mem.1 h)

/-- A text is read as an IPv4 address exactly if it spells one. -/
theorem ofChars?_eq_v4_iff {text : List Char} {address : IPv4} :
    ofChars? text = some (.v4 address) ↔ SpellsV4 text address.octets := by
  by_cases hdot : '.' ∈ text
  · rw [ofChars?_of_dot hdot, ← dotted?_bind_eq_some_iff]
    cases (dotted? text).bind IPv4.ofChars? <;> simp
  · rw [ofChars?_of_no_dot hdot]
    exact iff_of_false (by simp) fun h => hdot h.dot_mem

/-- A text is read as an IPv6 address exactly if it has no dot and spells one. -/
theorem ofChars?_eq_v6_iff {text : List Char} {address : IPv6} :
    ofChars? text = some (.v6 address) ↔ '.' ∉ text ∧ IPv6.ofChars? text = some address := by
  by_cases hdot : '.' ∈ text
  · rw [ofChars?_of_dot hdot]
    cases (dotted? text).bind IPv4.ofChars? <;> simp [hdot]
  · rw [ofChars?_of_no_dot hdot]
    simp [hdot]

/-- Any other text is not read. -/
theorem ofChars?_eq_none_iff {text : List Char} :
    ofChars? text = none ↔
      (∀ octets, ¬ SpellsV4 text octets) ∧ ¬ ('.' ∉ text ∧ (IPv6.ofChars? text).isSome) := by
  constructor
  · intro hnone
    constructor
    · intro octets hspells
      have hread : ofChars? text = some (.v4 ⟨octets, hspells.length_eq⟩) :=
        ofChars?_eq_v4_iff.2 hspells
      rw [hnone] at hread
      cases hread
    · rintro ⟨hdot, hsome⟩
      obtain ⟨address, hread⟩ := Option.isSome_iff_exists.1 hsome
      have h := ofChars?_eq_v6_iff.2 ⟨hdot, hread⟩
      rw [hnone] at h
      cases h
  · rintro ⟨hv4, hv6⟩
    cases hread : ofChars? text with
    | none => rfl
    | some address =>
      cases address with
      | v4 address => exact absurd (ofChars?_eq_v4_iff.1 hread) (hv4 _)
      | v6 address =>
        obtain ⟨hdot, hsome⟩ := ofChars?_eq_v6_iff.1 hread
        exact absurd ⟨hdot, Option.isSome_iff_exists.2 ⟨_, hsome⟩⟩ hv6

end Address

end SpanCourier
