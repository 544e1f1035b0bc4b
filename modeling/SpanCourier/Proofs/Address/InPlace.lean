import SpanCourier.Address.InPlace
import SpanCourier.Proofs.Address.Grammar
import SpanCourier.Proofs.Text.Utf8

set_option autoImplicit false

/-! # Reading in place never slips

What the reader in place makes of the bytes of a text is what reading its characters gives, and no
step of it goes outside of the text or of an array or past a word (`InPlace.read_utf8Chars`). The
places where it cuts are those of ASCII characters or begin one, the cells that it writes are the
first of those that are still free, and the groups on both sides of a doubled colon fit in the eight
cells because there are seven of them at most.
-/

namespace SpanCourier

namespace Reading

variable {α : Type}

@[simp] theorem ofOption_none : (ofOption none : Reading α) = .error .refused := rfl

@[simp] theorem ofOption_some (a : α) : ofOption (some a) = .ok a := rfl

theorem ofOption_eq_ok_iff {read : Option α} {a : α} : ofOption read = .ok a ↔ read = some a := by
  cases read with
  | none => exact iff_of_false (fun h => by cases h) fun h => by cases h
  | some b => rw [ofOption_some, Except.ok.injEq, Option.some.injEq]

/-- The only way to stop early is to refuse the text. -/
theorem refused_of_ofOption {read : Option α} {stop : Stop} (h : ofOption read = .error stop) :
    stop = .refused := by
  cases read with
  | none => exact (Except.error.inj h).symm
  | some a => cases h

theorem inWord_of_lt {size n : Nat} (h : n < size) : inWord size n = .ok n := if_pos h

/-- The counts and places of an address are far below the size of a word. -/
theorem inWord_of_le {n : Nat} (h : n ≤ 16) : inWord UInt64.size n = .ok n :=
  inWord_of_lt (Nat.lt_of_le_of_lt h (by decide))

/-- The first of the free cells is written. -/
theorem write_append (done : List α) (cell value : α) (free : List α) :
    write (done ++ cell :: free) done.length value = .ok (done ++ value :: free) := by
  have hplace : done.length < (done ++ cell :: free).length := by
    rw [List.length_append, List.length_cons]
    omega
  rw [write, if_pos hplace, List.set_append_right _ _ (Nat.le_refl _), Nat.sub_self]
  rfl

/-- The cells in the middle are overwritten. -/
theorem overwrite_append (done rest : List α) {cells values : List α}
    (h : values.length = cells.length) :
    overwrite (done ++ cells ++ rest) done.length (done.length + cells.length) values =
      .ok (done ++ values ++ rest) := by
  have hbounds : done.length ≤ done.length + cells.length
      ∧ done.length + cells.length ≤ (done ++ cells ++ rest).length
      ∧ values.length = done.length + cells.length - done.length := by
    rw [List.length_append, List.length_append]
    omega
  have hfirst : (done ++ cells ++ rest).take done.length = done := by
    rw [List.append_assoc, List.take_left]
  have hlast : (done ++ cells ++ rest).drop (done.length + cells.length) = rest := by
    rw [← List.length_append, List.drop_left]
  rw [overwrite, if_pos hbounds, hfirst, hlast]

/-! ## Texts as bytes -/

/-- A text may be cut before any of its characters. -/
theorem isCut_utf8Chars (front : List UInt8) (chars : List Char) :
    isCut (front ++ utf8Chars chars) front.length = true := by
  rw [isCut, List.getElem?_append_right (Nat.le_refl _), Nat.sub_self]
  cases chars with
  | nil => exact decide_eq_true (by rw [utf8Chars_nil, List.append_nil])
  | cons c rest =>
    obtain ⟨lead, more, he, hlead⟩ := utf8EncodeChar_lead c
    rw [utf8Chars_cons, he, List.cons_append, List.getElem?_cons_zero]
    exact Bool.or_eq_true_iff.2 (hlead.imp decide_eq_true decide_eq_true)

theorem textBefore_utf8Chars (front : List UInt8) (chars : List Char) :
    textBefore (front ++ utf8Chars chars) front.length = .ok front := by
  rw [textBefore, if_pos (isCut_utf8Chars front chars), List.take_left]

theorem textFrom_utf8Chars (front : List UInt8) (chars : List Char) :
    textFrom (front ++ utf8Chars chars) front.length = .ok (utf8Chars chars) := by
  rw [textFrom, if_pos (isCut_utf8Chars front chars), List.drop_left]

theorem findPair_cons_of_ne {sep b : UInt8} (h : b ≠ sep) (rest : List UInt8) :
    findPair sep (b :: rest) = (findPair sep rest).map (· + 1) := by
  cases rest with
  | nil => rfl
  | cons c rest => exact if_neg fun hp => h hp.1

theorem findPair_append_of_notMem {sep : UInt8} {front : List UInt8} (h : sep ∉ front)
    (back : List UInt8) :
    findPair sep (front ++ back) = (findPair sep back).map (· + front.length) := by
  induction front with
  | nil => exact Option.map_id'.symm
  | cons b front ih =>
    rw [List.mem_cons, not_or] at h
    rw [List.cons_append, findPair_cons_of_ne (Ne.symm h.1), ih h.2, Option.map_map]
    rfl

/-- A doubled ASCII character is found where the text is cut at it. -/
theorem findPair_utf8Chars {sep : Char} (hsep : sep.toNat < 128) (text : List Char) :
    findPair (asciiByte sep) (utf8Chars text) =
      (cutPair sep text).map fun pair => (utf8Chars pair.1).length := by
  have hnot : ∀ {c : Char}, c ≠ sep → asciiByte sep ∉ String.utf8EncodeChar c :=
    fun hc => mt (asciiByte_mem_iff hsep).1 hc
  fun_induction cutPair sep text with
  | case1 => rfl
  | case2 c =>
    by_cases hc : c = sep
    · rw [hc, utf8Chars_cons, utf8EncodeChar_of_lt hsep]
      rfl
    · rw [utf8Chars_cons, findPair_append_of_notMem (hnot hc)]
      rfl
  | case3 c d rest hpair =>
    rw [hpair.1, hpair.2, utf8Chars_cons, utf8Chars_cons, utf8EncodeChar_of_lt hsep]
    exact if_pos ⟨rfl, rfl⟩
  | case4 c d rest hpair ih =>
    rw [utf8Chars_cons, Option.map_map]
    by_cases hc : c = sep
    · -- one separator alone: the next byte is not the separator's
      have hd : d ≠ sep := fun hd => hpair ⟨hc, hd⟩
      obtain ⟨lead, more, he, -⟩ := utf8EncodeChar_lead d
      have hlead : lead ≠ asciiByte sep := by
        rintro rfl
        exact hnot hd (he ▸ List.mem_cons_self)
      rw [hc, utf8EncodeChar_of_lt hsep, List.singleton_append]
      rw [utf8Chars_cons, he, List.cons_append] at ih ⊢
      rw [findPair, if_neg fun hp => hlead hp.2, ih, Option.map_map]
      congr 1
      funext pair
      rw [Function.comp, Function.comp, utf8Chars_cons, utf8EncodeChar_of_lt hsep]
      rfl
    · rw [findPair_append_of_notMem (hnot hc), ih, Option.map_map]
      congr 1
      funext pair
      rw [Function.comp, Function.comp, utf8Chars_cons, List.length_append, Nat.add_comm]

end Reading

namespace IPv6.InPlace

open Reading

theorem colon_eq : colon = asciiByte ':' := rfl

theorem colon_lt : ':'.toNat < 128 := by decide

/-! ## Groups -/

theorem shift_or_lt {group digit k : Nat} (hgroup : group < 16 ^ k) (hdigit : digit < 16) :
    group <<< 4 ||| digit = 16 * group + digit ∧ 16 * group + digit < 16 ^ (k + 1) := by
  constructor
  · rw [← Nat.shiftLeft_add_eq_or_of_lt (i := 4) hdigit, Nat.shiftLeft_eq, Nat.mul_comm]
  · rw [Nat.pow_succ]
    omega

/-- The digits of a group of four at most fit in its word. -/
theorem readDigits_eq {part : List UInt8} {group k : Nat} (hgroup : group < 16 ^ k)
    (hroom : k + part.length ≤ 4) :
    readDigits group part =
      if (byteChars part).all isHex then
        .ok ((byteChars part).foldl (fun n c => 16 * n + (hexValue? c).getD 0) group)
      else .error .refused := by
  induction part generalizing group k with
  | nil => rfl
  | cons b rest ih =>
    rw [List.length_cons] at hroom
    rw [readDigits, byteChars, List.map_cons, List.all_cons, List.foldl_cons, isHex]
    cases hdigit : hexValue? (Char.ofNat b.toNat) with
    | none => rfl
    | some digit =>
      obtain ⟨hvalue, hlt⟩ := shift_or_lt hgroup (lt_of_hexValue? hdigit)
      have hword : group <<< 4 ||| digit < UInt16.size := by
        have : 16 ^ (k + 1) ≤ 16 ^ 4 := Nat.pow_le_pow_right (by decide) (by omega)
        rw [hvalue]
        exact Nat.lt_of_lt_of_le hlt this
      show (inWord UInt16.size (group <<< 4 ||| digit) >>= fun g => readDigits g rest) = _
      rw [inWord_of_lt hword, hvalue]
      exact ih hlt (by omega)

/-- A group is read from bytes as it is from the characters that have these as numbers. -/
theorem readGroup_eq (part : List UInt8) :
    readGroup part = ofOption (group? (byteChars part)) := by
  by_cases hlength : part = [] ∨ 4 < part.length
  · have hnone : group? (byteChars part) = none := by
      refine if_neg fun h => ?_
      obtain ⟨hpos, hfour, -⟩ := isGroup_iff.1 h
      rw [length_byteChars] at hpos hfour
      rcases hlength with rfl | hlong
      · exact absurd hpos (by decide)
      · omega
    rw [readGroup, if_pos hlength, hnone]
    rfl
  · obtain ⟨hne, hfour⟩ := not_or.1 hlength
    have hshape : (!(byteChars part).isEmpty && decide ((byteChars part).length ≤ 4)) = true := by
      rw [length_byteChars, decide_eq_true (Nat.le_of_not_lt hfour), byteChars, List.isEmpty_map,
        List.isEmpty_eq_false_iff.2 hne]
      rfl
    rw [readGroup, if_neg hlength, readDigits_eq (k := 0) (by decide) (by omega), group?, hshape,
      Bool.true_and]
    split <;> rfl

/-- No group holds a character outside ASCII. -/
theorem group?_eq_none {digits : List Char} {c : Char} (hc : c ∈ digits) (h : 128 ≤ c.toNat) :
    group? digits = none := by
  refine if_neg fun hall => ?_
  have hdigit := (isGroup_iff.1 hall).2.2 c hc
  exact absurd (toNat_lt_of_mem_hexDigits hdigit) (Nat.not_lt_of_le h)

/-- A group is read from the bytes of a text as it is from its characters. -/
theorem readGroup_utf8Chars (part : List Char) :
    readGroup (utf8Chars part) = ofOption (group? part) := by
  rw [readGroup_eq]
  by_cases hascii : ∀ c ∈ part, c.toNat < 128
  · rw [byteChars_utf8Chars hascii]
  · -- a character outside ASCII is no digit, and neither are its bytes
    obtain ⟨c, hc⟩ := not_forall.1 hascii
    obtain ⟨hmem, hlt⟩ := Classical.not_imp.1 hc
    obtain ⟨d, hd, hle⟩ := exists_mem_byteChars hmem (Nat.le_of_not_lt hlt)
    rw [group?_eq_none hmem (Nat.le_of_not_lt hlt), group?_eq_none hd hle]

/-! ## Rows -/

/-- The parts fill the free cells in order, if there are enough. -/
theorem readParts_utf8Chars (parts : List (List Char)) (done free : List UInt16)
    (hcells : done.length + free.length = 8) :
    readParts (done ++ free) done.length (parts.map utf8Chars) =
      ofOption ((parts.mapM group?).bind fun groups =>
        if groups.length ≤ free.length then
          some (done ++ groups ++ free.drop groups.length, done.length + groups.length)
        else none) := by
  induction parts generalizing done free with
  | nil =>
    rw [List.mapM_nil]
    simp [readParts]
  | cons part rest ih =>
    rw [List.map_cons, readParts, List.mapM_cons]
    cases free with
    | nil =>
      -- no cell is free: the part is one too many
      rw [if_pos (show done.length = 8 from hcells)]
      cases group? part with
      | none => rfl
      | some group => cases rest.mapM group? <;> rfl
    | cons cell free =>
      rw [List.length_cons] at hcells
      rw [if_neg (by omega), readGroup_utf8Chars]
      cases group? part with
      | none => rfl
      | some group =>
        have hnext := ih (done ++ [group]) free (by rw [List.length_append]; simp; omega)
        rw [List.append_assoc, List.singleton_append, List.length_append, List.length_singleton]
          at hnext
        show (write (done ++ cell :: free) done.length group >>= fun cells =>
          inWord UInt64.size (done.length + 1) >>= fun count =>
            readParts cells count (rest.map utf8Chars)) = _
        rw [write_append, inWord_of_le (by omega)]
        refine hnext.trans ?_
        cases rest.mapM group? with
        | none => rfl
        | some groups =>
          simp [Nat.add_assoc, Nat.add_comm 1]

/-- Eight cells of which the first hold some groups, and how many do. -/
def rowCells (groups : List UInt16) : List UInt16 × Nat :=
  (groups ++ List.replicate (8 - groups.length) 0, groups.length)

/-- A row fills the first of eight cells. -/
theorem readRow_utf8Chars (text : List Char) :
    readRow (utf8Chars text) =
      ofOption ((groups? text).bind fun groups =>
        if groups.length ≤ 8 then some (rowCells groups) else none) := by
  by_cases hnil : text = []
  · subst hnil
    rfl
  · have hbytes : utf8Chars text ≠ [] := mt utf8Chars_eq_nil_iff.1 hnil
    have hparts := splitOn_utf8Chars colon_lt text
    have hread := readParts_utf8Chars (fields ':' text) [] (List.replicate 8 0) rfl
    rw [readRow, if_neg hbytes, colon_eq, hparts, groups?, if_neg (mt List.isEmpty_iff.1 hnil)]
    simp only [List.nil_append, List.length_nil, Nat.zero_add, List.length_replicate,
      List.drop_replicate] at hread
    exact hread

/-! ## Addresses -/

/-- The groups behind a doubled colon go to the last of the eight cells, and there is a cell for
each. -/
theorem overwrite_last {first last : List UInt16} (hfew : first.length + last.length ≤ 7) :
    overwrite (first ++ List.replicate (8 - first.length) 0) (8 - last.length) 8 last =
      .ok (first ++ List.replicate (8 - (first.length + last.length)) 0 ++ last) := by
  have hzeros : List.replicate (8 - first.length) (0 : UInt16) =
      List.replicate (8 - (first.length + last.length)) 0 ++ List.replicate last.length 0 := by
    rw [List.replicate_append_replicate]
    congr 1
    omega
  have hdone : (first ++ List.replicate (8 - (first.length + last.length)) (0 : UInt16)).length =
      8 - last.length := by
    rw [List.length_append, List.length_replicate]
    omega
  have hall : 8 - last.length + (List.replicate last.length (0 : UInt16)).length = 8 := by
    rw [List.length_replicate]
    omega
  have hvalues : last.length = (List.replicate last.length (0 : UInt16)).length :=
    List.length_replicate.symm
  have hmiddle := overwrite_append
    (first ++ List.replicate (8 - (first.length + last.length)) (0 : UInt16)) [] hvalues
  rw [List.append_nil, List.append_nil, hdone, hall] at hmiddle
  rw [hzeros, ← List.append_assoc, hmiddle]

/-- Two rows are put together as they are filled up to eight groups. -/
theorem fillCells_rowCells {first last : List UInt16} (hfirst : first.length ≤ 8)
    (hlast : last.length ≤ 8) :
    fillCells (rowCells first) (rowCells last) =
      ofOption ((fill? first last).map IPv6.groups) := by
  have hcells : firstCells (rowCells last).1 last.length = .ok last := by
    rw [rowCells, firstCells, if_pos (by rw [List.length_append]; omega), List.take_left]
  show (inWord UInt64.size (first.length + last.length) >>= _) = _
  rw [inWord_of_le (by omega)]
  by_cases hfew : first.length + last.length ≤ 7
  · rw [fill?, dif_pos hfew]
    refine (if_neg (Nat.not_lt_of_le hfew)).trans ?_
    show (minus 8 last.length >>= fun place =>
      firstCells (rowCells last).1 last.length >>= overwrite (rowCells first).1 place 8) = _
    rw [minus, if_pos hlast, hcells]
    exact overwrite_last hfew
  · rw [fill?, dif_neg hfew]
    exact if_pos (Nat.lt_of_not_le hfew)

/-- Two rows are read into the cells as they are read and filled up. -/
theorem readRows_utf8Chars (front back : List Char) :
    (do fillCells (← readRow (utf8Chars front)) (← readRow (utf8Chars back))) =
      ofOption (((groups? front).bind fun first => (groups? back).bind fun last =>
        fill? first last).map IPv6.groups) := by
  rw [readRow_utf8Chars, readRow_utf8Chars]
  cases groups? front with
  | none => rfl
  | some first =>
    rw [Option.bind_some, Option.bind_some]
    by_cases hfirst : first.length ≤ 8
    · rw [if_pos hfirst]
      cases groups? back with
      | none => rfl
      | some last =>
        rw [Option.bind_some, Option.bind_some]
        by_cases hlast : last.length ≤ 8
        · rw [if_pos hlast]
          exact fillCells_rowCells hfirst hlast
        · rw [if_neg hlast, fill?, dif_neg (by omega)]
          rfl
    · rw [if_neg hfirst]
      cases groups? back with
      | none => rfl
      | some last =>
        show _ = ofOption ((fill? first last).map IPv6.groups)
        rw [fill?, dif_neg (by omega)]
        rfl

/-- Around a doubled colon the same groups are read as from the two texts. -/
theorem readGap_utf8Chars (front back : List Char) :
    readGap (utf8Chars (front ++ ':' :: ':' :: back)) (utf8Chars front).length =
      if (cutPair ':' back).isSome then .error .refused
      else ofOption (((groups? front).bind fun first => (groups? back).bind fun last =>
        fill? first last).map IPv6.groups) := by
  have hfind : (findPair colon (utf8Chars back)).isSome = (cutPair ':' back).isSome := by
    rw [colon_eq, findPair_utf8Chars colon_lt, Option.isSome_map]
  have hhead : textBefore (utf8Chars (front ++ ':' :: ':' :: back)) (utf8Chars front).length =
      .ok (utf8Chars front) := by
    rw [utf8Chars_append]
    exact textBefore_utf8Chars _ _
  have htail : textFrom (utf8Chars (front ++ ':' :: ':' :: back)) ((utf8Chars front).length + 2) =
      .ok (utf8Chars back) := by
    have hcut := textFrom_utf8Chars (utf8Chars front ++ [colon, colon]) back
    rw [List.length_append, List.append_assoc] at hcut
    rw [utf8Chars_append]
    exact hcut
  rw [readGap, hhead]
  show (textFrom _ ((utf8Chars front).length + 2) >>= _) = _
  rw [htail]
  show (if (findPair colon (utf8Chars back)).isSome then .error .refused
    else do fillCells (← readRow (utf8Chars front)) (← readRow (utf8Chars back))) = _
  rw [hfind, readRows_utf8Chars]

/-- Without a doubled colon a row of eight groups is read, and nothing else. -/
theorem readWhole_utf8Chars (text : List Char) :
    (do let (cells, count) ← readRow (utf8Chars text)
        if count = 8 then .ok cells else .error .refused) =
      ofOption (((groups? text).bind fun groups =>
        if h : groups.length = 8 then some (IPv6.mk groups h) else none).map IPv6.groups) := by
  rw [readRow_utf8Chars]
  cases groups? text with
  | none => rfl
  | some groups =>
    rw [Option.bind_some, Option.bind_some]
    by_cases hall : groups.length = 8
    · have hcells : rowCells groups = (groups, 8) := by
        rw [rowCells, hall, Nat.sub_self, List.replicate_zero, List.append_nil]
      rw [if_pos (Nat.le_of_eq hall), hcells, dif_pos hall]
      rfl
    · rw [dif_neg hall]
      by_cases hfit : groups.length ≤ 8
      · rw [if_pos hfit]
        exact if_neg hall
      · rw [if_neg hfit]
        rfl

/-- The groups are read from the bytes of a text as they are from its characters. -/
theorem readGroups_utf8Chars (text : List Char) :
    readGroups (utf8Chars text) = ofOption ((IPv6.ofChars? text).map IPv6.groups) := by
  rw [readGroups, colon_eq, findPair_utf8Chars colon_lt, IPv6.ofChars?]
  cases hcut : cutPair ':' text with
  | none => exact readWhole_utf8Chars text
  | some pair =>
    obtain ⟨front, back⟩ := pair
    rw [append_of_cutPair hcut]
    refine (readGap_utf8Chars front back).trans ?_
    show _ = ofOption ((if (cutPair ':' back).isSome then none else _).map IPv6.groups)
    by_cases hsecond : (cutPair ':' back).isSome
    · rw [if_pos hsecond, if_pos hsecond]
      rfl
    · rw [if_neg hsecond, if_neg hsecond]
      rfl

/-! ## Bytes -/

/-- Each group goes to the next two of the free cells. -/
theorem writeGroups_eq (groups : List UInt16) (done free : List UInt8) (place : Nat)
    (hdone : done.length = place * 2) (hfree : free.length = groups.length * 2)
    (hplace : place + groups.length ≤ 8) :
    writeGroups (done ++ free) place groups = .ok (done ++ groups.flatMap groupBytes) := by
  induction groups generalizing done free place with
  | nil =>
    rw [List.length_nil, Nat.zero_mul, List.length_eq_zero_iff] at hfree
    rw [hfree]
    rfl
  | cons group rest ih =>
    rw [List.length_cons] at hfree hplace
    obtain ⟨high, low, free, rfl⟩ : ∃ high low more, free = high :: low :: more := by
      match free, hfree with
      | [high], h => exact absurd h (by rw [List.length_singleton]; omega)
      | high :: low :: more, _ => exact ⟨high, low, more, rfl⟩
    rw [List.length_cons, List.length_cons] at hfree
    have hbytes : (groupBytes group).length = [high, low].length := rfl
    have hwritten := overwrite_append done free hbytes
    rw [List.append_assoc, hdone] at hwritten
    have hstep : writeGroups (done ++ high :: low :: free) place (group :: rest) =
        writeGroups (done ++ groupBytes group ++ free) (place + 1) rest := by
      rw [writeGroups, inWord_of_le (by omega), inWord_of_le (by omega)]
      exact congrArg (· >>= fun bytes => writeGroups bytes (place + 1) rest) hwritten
    have hplace' : (done ++ groupBytes group).length = (place + 1) * 2 := by
      rw [List.length_append, hdone, hbytes]
      simp only [List.length_cons, List.length_nil]
      omega
    rw [hstep, ih (done ++ groupBytes group) free (place + 1) hplace' (by omega) (by omega),
      List.flatMap_cons, List.append_assoc]

/-- An address is read from the bytes of a text as it is from its characters. -/
theorem read_utf8Chars (text : List Char) :
    read (utf8Chars text) = ofOption ((IPv6.ofChars? text).map IPv6.bytes) := by
  rw [read, readGroups_utf8Chars]
  cases IPv6.ofChars? text with
  | none => rfl
  | some address =>
    have hlength := address.length_eq
    exact writeGroups_eq address.groups [] (List.replicate 16 0) 0 rfl
      (by rw [hlength]; rfl) (by omega)

/-- The reader in place reads the bytes of the address that a text spells, and refuses a text that
spells none; it never slips, and agrees with the reader of characters. -/
theorem read_exactly_spelled (text : String) :
    (∀ bytes, read (utf8 text) = .ok bytes ↔
        ∃ groups, Spells text.toList groups ∧ BigEndian groups bytes)
      ∧ read (utf8 text) ≠ .error .outside ∧ read (utf8 text) ≠ .error .overflow
      ∧ read (utf8 text) = ofOption ((IPv6.ofChars? text.toList).map IPv6.bytes) := by
  rw [utf8_eq, read_utf8Chars]
  refine ⟨fun bytes => ?_, fun h => ?_, fun h => ?_, rfl⟩
  · rw [ofOption_eq_ok_iff, Option.map_eq_some_iff]
    simp only [ofChars?_eq_some_iff, bytes_eq_iff]
    constructor
    · rintro ⟨address, hspells, hbytes⟩
      exact ⟨address.groups, hspells, hbytes⟩
    · rintro ⟨groups, hspells, hbytes⟩
      exact ⟨⟨groups, hspells.length_eq⟩, hspells, hbytes⟩
  · cases refused_of_ofOption h
  · cases refused_of_ofOption h

end IPv6.InPlace

end SpanCourier
