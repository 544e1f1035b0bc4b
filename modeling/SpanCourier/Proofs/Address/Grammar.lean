import SpanCourier.Address.IPv6
import SpanCourier.Proofs.Text.Hex
import SpanCourier.Proofs.Text.Split

set_option autoImplicit false

/-! # The grammar of IPv6 addresses

A group is one to four hexadecimal digits, and stands for the number that they denote by their
places (`hexNumber`). A row of groups is nothing, or groups with a colon between each two
(`IPv6.Row`). A text spells an address if it is a row of eight groups, or two rows of seven groups
at most with a doubled colon between them (`IPv6.Spells`).

Reading a text and spelling it come to the same (`IPv6.ofChars?_eq_some_iff`): the parts of a row
are those that the reader cuts, because no group holds a colon, and the doubled colon is the first
that the reader finds, because no group is empty.
-/

namespace SpanCourier

namespace IPv6

/-! ## Groups -/

/-- One to four hexadecimal digits, in either letter case. -/
def IsGroup (digits : List Char) : Prop :=
  1 ≤ digits.length ∧ digits.length ≤ 4 ∧ ∀ c ∈ digits, c.toLower ∈ hexDigits

/-- A group fits in sixteen bits. -/
theorem IsGroup.hexNumber_lt {digits : List Char} (h : IsGroup digits) :
    hexNumber digits < 65536 :=
  calc hexNumber digits < 16 ^ digits.length := SpanCourier.hexNumber_lt h.2.2
    _ ≤ 16 ^ 4 := Nat.pow_le_pow_right (by decide) h.2.1

theorem isGroup_iff {digits : List Char} :
    (!digits.isEmpty && digits.length ≤ 4 && digits.all isHex) = true ↔ IsGroup digits :=
  hexRow_iff

/-- A group is read as the number that it stands for, and nothing else is read. -/
theorem group?_eq_some_iff {digits : List Char} {g : UInt16} :
    group? digits = some g ↔ IsGroup digits ∧ g.toNat = hexNumber digits := by
  by_cases hgroup : IsGroup digits
  · have hvalue : (UInt16.ofNat (natOfHex digits)).toNat = hexNumber digits := by
      rw [natOfHex_eq_hexNumber hgroup.2.2]
      exact UInt16.toNat_ofNat_of_lt' hgroup.hexNumber_lt
    rw [group?, if_pos (isGroup_iff.2 hgroup), Option.some.injEq, ← UInt16.toNat_inj, hvalue]
    exact ⟨fun h => ⟨hgroup, h.symm⟩, fun h => h.2.symm⟩
  · rw [group?, if_neg (mt isGroup_iff.1 hgroup)]
    exact iff_of_false (fun h => Option.some_ne_none _ h.symm) fun h => hgroup h.1

/-! ## Rows of groups -/

/-- The text is nothing, or groups with a colon between each two, and stands for these numbers. -/
def Row (text : List Char) (groups : List UInt16) : Prop :=
  ∃ parts, (∀ part ∈ parts, IsGroup part) ∧ text = joinFields ':' parts
    ∧ groups.map UInt16.toNat = parts.map hexNumber

theorem mapM_group?_eq_some_iff {parts : List (List Char)} {groups : List UInt16} :
    parts.mapM group? = some groups ↔
      (∀ part ∈ parts, IsGroup part) ∧ groups.map UInt16.toNat = parts.map hexNumber := by
  induction parts generalizing groups with
  | nil =>
    rw [List.mapM_nil, List.map_nil, List.map_eq_nil_iff]
    constructor
    · exact fun h => ⟨fun part hp => absurd hp List.not_mem_nil, (Option.some.inj h).symm⟩
    · exact fun h => congrArg some h.2.symm
  | cons part rest ih =>
    simp only [List.mapM_cons, Option.bind_eq_bind, Option.bind_eq_some_iff, Option.pure_def,
      Option.some.injEq]
    constructor
    · rintro ⟨g, hg, gs, hgs, rfl⟩
      obtain ⟨hgroup, hvalue⟩ := group?_eq_some_iff.1 hg
      obtain ⟨hgroups, hvalues⟩ := ih.1 hgs
      refine ⟨List.forall_mem_cons.2 ⟨hgroup, hgroups⟩, ?_⟩
      rw [List.map_cons, List.map_cons, hvalue, hvalues]
    · rintro ⟨hall, hvalues⟩
      obtain ⟨hgroup, hgroups⟩ := List.forall_mem_cons.1 hall
      rw [List.map_cons] at hvalues
      obtain ⟨g, gs, rfl, hvalue, hrest⟩ := List.map_eq_cons_iff.1 hvalues
      exact ⟨g, group?_eq_some_iff.2 ⟨hgroup, hvalue⟩, gs, ih.2 ⟨hgroups, hrest⟩, rfl⟩

/-- No group holds a colon. -/
theorem IsGroup.colon_notMem {digits : List Char} (h : IsGroup digits) : ':' ∉ digits := by
  intro hmem
  exact absurd (h.2.2 ':' hmem) (by decide)

/-- The parts of a row that is not empty are its groups. -/
theorem fields_of_groups {parts : List (List Char)} (hne : parts ≠ [])
    (h : ∀ part ∈ parts, IsGroup part) :
    fields ':' (joinFields ':' parts) = parts :=
  fields_joinFields hne fun part hp => (h part hp).colon_notMem

theorem joinFields_ne_nil {parts : List (List Char)} (hne : parts ≠ [])
    (h : ∀ part ∈ parts, IsGroup part) : joinFields ':' parts ≠ [] := by
  intro hnil
  have hparts := fields_of_groups hne h
  rw [hnil] at hparts
  have hempty : IsGroup [] := h [] (hparts ▸ List.mem_cons_self)
  exact absurd hempty.1 (by decide)

/-- What is read as groups is a row of these groups, and a row is read as its groups. -/
theorem groups?_eq_some_iff {text : List Char} {groups : List UInt16} :
    groups? text = some groups ↔ Row text groups := by
  constructor
  · intro h
    by_cases hnil : text = []
    · rw [groups?, if_pos (List.isEmpty_iff.2 hnil)] at h
      obtain rfl : [] = groups := Option.some.inj h
      exact ⟨[], List.forall_mem_nil _, hnil, rfl⟩
    · rw [groups?, if_neg (mt List.isEmpty_iff.1 hnil)] at h
      obtain ⟨hgroups, hvalues⟩ := mapM_group?_eq_some_iff.1 h
      exact ⟨fields ':' text, hgroups, (joinFields_fields ':' text).symm, hvalues⟩
  · rintro ⟨parts, hgroups, rfl, hvalues⟩
    by_cases hne : parts = []
    · subst hne
      obtain rfl : groups = [] := List.map_eq_nil_iff.1 hvalues
      rfl
    · have hnil := joinFields_ne_nil hne hgroups
      rw [groups?, if_neg (mt List.isEmpty_iff.1 hnil), fields_of_groups hne hgroups]
      exact mapM_group?_eq_some_iff.2 ⟨hgroups, hvalues⟩

/-- No row has a doubled colon or ends with a colon. -/
theorem Row.cutPair_eq {text : List Char} {groups : List UInt16} (h : Row text groups) :
    cutPair ':' text = none ∧ text.getLast? ≠ some ':' := by
  obtain ⟨parts, hgroups, rfl, -⟩ := h
  by_cases hne : parts = []
  · subst hne
    exact ⟨rfl, fun h => Option.some_ne_none _ h.symm⟩
  · have hparts : [] ∉ fields ':' (joinFields ':' parts) := by
      rw [fields_of_groups hne hgroups]
      exact fun hmem => absurd (hgroups [] hmem).1 (by decide)
    exact ⟨cutPair_eq_none hparts, getLast?_ne hparts⟩

/-! ## Addresses -/

/-- The text spells the address of these groups: a row of eight groups, or two rows around a doubled
colon, which stands for the groups that are missing, at least one. -/
inductive Spells : List Char → List UInt16 → Prop
  | whole {text : List Char} {groups : List UInt16} (row : Row text groups)
      (all : groups.length = 8) : Spells text groups
  | gap {front back : List Char} {first last : List UInt16} (head : Row front first)
      (tail : Row back last) (few : first.length + last.length ≤ 7) :
      Spells (front ++ "::".toList ++ back)
        (first ++ List.replicate (8 - (first.length + last.length)) 0 ++ last)

/-- There are eight groups. -/
theorem Spells.length_eq {text : List Char} {groups : List UInt16} (h : Spells text groups) :
    groups.length = 8 := by
  cases h with
  | whole row all => exact all
  | gap head tail few =>
    rw [List.length_append, List.length_append, List.length_replicate]
    omega

theorem groups_inj {a b : IPv6} (h : a.groups = b.groups) : a = b := by
  obtain ⟨groups, hlength⟩ := a
  obtain rfl : groups = b.groups := h
  rfl

/-- Two rows are filled up to eight groups if one at least is missing. -/
theorem fill?_eq_some_iff {first last : List UInt16} {address : IPv6} :
    fill? first last = some address ↔ first.length + last.length ≤ 7
      ∧ address.groups =
        first ++ List.replicate (8 - (first.length + last.length)) 0 ++ last := by
  by_cases hfew : first.length + last.length ≤ 7
  · rw [fill?, dif_pos hfew, Option.some.injEq]
    constructor
    · rintro rfl
      exact ⟨hfew, rfl⟩
    · exact fun h => groups_inj h.2.symm
  · rw [fill?, dif_neg hfew]
    exact iff_of_false (fun h => Option.some_ne_none _ h.symm) fun h => hfew h.1

/-- Without a doubled colon a text is read as a row of eight groups. -/
theorem ofChars?_of_row {text : List Char} (hcut : cutPair ':' text = none) {address : IPv6} :
    ofChars? text = some address ↔ Row text address.groups := by
  rw [ofChars?, hcut]
  simp only [Option.bind_eq_bind, Option.bind_eq_some_iff, groups?_eq_some_iff]
  constructor
  · rintro ⟨groups, hrow, h⟩
    split at h
    · obtain rfl := Option.some.inj h
      exact hrow
    · cases h
  · exact fun hrow => ⟨address.groups, hrow, dif_pos address.length_eq⟩

/-- With a doubled colon it is read as two rows, and there is no second doubled colon. -/
theorem ofChars?_of_gap {text front back : List Char}
    (hcut : cutPair ':' text = some (front, back)) {address : IPv6} :
    ofChars? text = some address ↔ cutPair ':' back = none
      ∧ ∃ first last, Row front first ∧ Row back last ∧ fill? first last = some address := by
  have hread : ofChars? text =
      if (cutPair ':' back).isSome then none
      else (groups? front).bind fun first => (groups? back).bind fun last => fill? first last := by
    rw [ofChars?, hcut]
    rfl
  cases hback : cutPair ':' back with
  | some pair =>
    rw [hread, hback]
    exact iff_of_false (fun h => Option.some_ne_none _ h.symm) fun h => Option.some_ne_none _ h.1
  | none =>
    rw [hread, hback, Option.isSome_none, if_neg Bool.false_ne_true]
    simp only [Option.bind_eq_some_iff, groups?_eq_some_iff, true_and]
    constructor
    · rintro ⟨first, hhead, last, htail, hfill⟩
      exact ⟨first, last, hhead, htail, hfill⟩
    · rintro ⟨first, last, hhead, htail, hfill⟩
      exact ⟨first, hhead, last, htail, hfill⟩

/-- A text is read as an address exactly if it spells its groups. -/
theorem ofChars?_eq_some_iff {text : List Char} {address : IPv6} :
    ofChars? text = some address ↔ Spells text address.groups := by
  constructor
  · intro h
    cases hcut : cutPair ':' text with
    | none => exact .whole ((ofChars?_of_row hcut).1 h) address.length_eq
    | some pair =>
      obtain ⟨front, back⟩ := pair
      obtain ⟨-, first, last, hhead, htail, hfill⟩ := (ofChars?_of_gap hcut).1 h
      obtain ⟨hfew, hgroups⟩ := fill?_eq_some_iff.1 hfill
      rw [hgroups, append_of_cutPair hcut, List.append_cons, List.append_cons,
        List.append_assoc front]
      exact .gap hhead htail hfew
  · generalize hgroups : address.groups = groups
    intro h
    cases h with
    | whole hrow hlength => exact (ofChars?_of_row hrow.cutPair_eq.1).2 (hgroups ▸ hrow)
    | @gap front back first last hhead htail hfew =>
      obtain ⟨hnone, hlast⟩ := hhead.cutPair_eq
      have hcut : cutPair ':' (front ++ "::".toList ++ back) = some (front, back) := by
        rw [List.append_assoc]
        exact cutPair_append hnone hlast back
      exact (ofChars?_of_gap hcut).2
        ⟨htail.cutPair_eq.1, first, last, hhead, htail, fill?_eq_some_iff.2 ⟨hfew, hgroups⟩⟩

theorem ofChars?_isSome_iff {text : List Char} :
    (ofChars? text).isSome = true ↔ ∃ groups, Spells text groups := by
  rw [Option.isSome_iff_exists]
  constructor
  · rintro ⟨address, hread⟩
    exact ⟨address.groups, ofChars?_eq_some_iff.1 hread⟩
  · rintro ⟨groups, hspells⟩
    exact ⟨⟨groups, hspells.length_eq⟩, ofChars?_eq_some_iff.2 hspells⟩

/-! ## Bytes -/

/-- The bytes of some numbers, two for each, the high one first. -/
inductive BigEndian : List UInt16 → List UInt8 → Prop
  | nil : BigEndian [] []
  | cons {group : UInt16} {groups : List UInt16} {high low : UInt8} {bytes : List UInt8}
      (value : group.toNat = 256 * high.toNat + low.toNat) (rest : BigEndian groups bytes) :
      BigEndian (group :: groups) (high :: low :: bytes)

/-- The bytes of an address are those of its groups, and no others are. -/
theorem bytes_eq_iff {address : IPv6} {bytes : List UInt8} :
    address.bytes = bytes ↔ BigEndian address.groups bytes := by
  rw [IPv6.bytes]
  generalize address.groups = groups
  constructor
  · rintro rfl
    induction groups with
    | nil => exact .nil
    | cons group rest ih =>
      refine .cons ?_ ih
      have hlt := group.toNat_lt
      rw [UInt8.toNat_ofNat', UInt8.toNat_ofNat']
      omega
  · intro h
    induction h with
    | nil => rfl
    | @cons group groups high low bytes value rest ih =>
      have hlow := low.toNat_lt
      have hdiv : group.toNat / 256 = high.toNat := by omega
      have hmod : group.toNat % 256 = low.toNat := by omega
      rw [List.flatMap_cons, ih, hdiv, hmod, UInt8.ofNat_toNat, UInt8.ofNat_toNat]
      rfl

end IPv6

end SpanCourier
