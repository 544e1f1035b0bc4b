import SpanCourier.Text.Split

set_option autoImplicit false

/-! # What cutting a text gives

`fields` cuts a text as `List.splitOn` does and `joinFields` joins it as `List.intercalate` does, so
the two undo each other on parts without the separator, and a text is cut around any one separator
into the parts before and those after it. Two separators in a row leave an empty part between them,
so a text whose parts all hold something has no such pair (`cutPair_eq_none`), and behind such a
text the next pair is the first (`cutPair_append`).
-/

namespace SpanCourier

variable {sep : Char}

/-! ## Parts -/

theorem fields_eq_splitOn (sep : Char) (text : List Char) :
    fields sep text = text.splitOn sep := by
  induction text with
  | nil => rfl
  | cons c rest ih =>
    rw [fields, List.splitOn_cons_eq_if_modifyHead, ih]
    by_cases hc : c = sep
    · rw [if_pos hc, if_pos (beq_iff_eq.2 hc)]
    · rw [if_neg hc, if_neg (mt beq_iff_eq.1 hc)]
      obtain ⟨part, parts, hrest⟩ := List.exists_cons_of_ne_nil (List.splitOn_ne_nil sep rest)
      rw [hrest]
      rfl

theorem joinFields_eq_intercalate (sep : Char) (parts : List (List Char)) :
    joinFields sep parts = [sep].intercalate parts := by
  fun_induction joinFields sep parts with
  | case1 => rfl
  | case2 part => exact List.intercalate_singleton.symm
  | case3 part parts hne ih =>
    rw [List.intercalate_cons_of_ne_nil hne, ih, List.append_assoc, List.singleton_append]

/-- The parts before a separator, and then those after it. -/
theorem fields_append_cons (sep : Char) (front back : List Char) :
    fields sep (front ++ sep :: back) = fields sep front ++ fields sep back := by
  simp only [fields_eq_splitOn, List.splitOn_append_cons_self]

/-- Parts without the separator are cut where they were joined. -/
theorem fields_joinFields {parts : List (List Char)} (hne : parts ≠ [])
    (h : ∀ part ∈ parts, sep ∉ part) : fields sep (joinFields sep parts) = parts := by
  rw [fields_eq_splitOn, joinFields_eq_intercalate, List.splitOn_intercalate sep h hne]

/-- The last part stands behind the others, each with a separator after it. -/
theorem joinFields_concat (parts : List (List Char)) (last : List Char) :
    joinFields sep (parts ++ [last]) = parts.flatMap (· ++ [sep]) ++ last := by
  induction parts with
  | nil => rfl
  | cons part rest ih =>
    have hne : rest ++ [last] ≠ [] := List.append_ne_nil_of_right_ne_nil _ (List.cons_ne_nil _ _)
    rw [List.cons_append, joinFields_eq_intercalate, List.intercalate_cons_of_ne_nil hne,
      ← joinFields_eq_intercalate, ih]
    simp

/-! ## The last separator -/

theorem splitLast_eq_none_iff {text : List Char} : splitLast sep text = none ↔ sep ∉ text := by
  induction text with
  | nil => simp [splitLast]
  | cons c rest ih =>
    rw [splitLast, List.mem_cons, not_or, ← ih]
    cases splitLast sep rest with
    | some pair => simp
    | none => simp [eq_comm]

/-- A text is cut behind its last separator. -/
theorem splitLast_append_cons (front : List Char) {back : List Char} (h : sep ∉ back) :
    splitLast sep (front ++ sep :: back) = some (front ++ [sep], back) := by
  induction front with
  | nil => simp [splitLast, splitLast_eq_none_iff.2 h]
  | cons c front ih => simp [splitLast, ih]

/-- The text up to the cut ends with the separator, and there is none behind the cut. -/
theorem eq_concat_of_splitLast {text front back : List Char}
    (h : splitLast sep text = some (front, back)) :
    (∃ start, front = start ++ [sep]) ∧ sep ∉ back := by
  induction text generalizing front with
  | nil => cases h
  | cons c rest ih =>
    rw [splitLast] at h
    split at h
    · next f b hrest =>
      cases h
      obtain ⟨⟨start, rfl⟩, hback⟩ := ih hrest
      exact ⟨⟨c :: start, rfl⟩, hback⟩
    · next hrest =>
      split at h
      · next hc =>
        cases h
        exact ⟨⟨[], by rw [hc]; rfl⟩, splitLast_eq_none_iff.1 hrest⟩
      · cases h

/-! ## Pairs of separators -/

/-- The text around the pair at which it is cut. -/
theorem append_of_cutPair {text front back : List Char}
    (h : cutPair sep text = some (front, back)) :
    text = front ++ sep :: sep :: back := by
  fun_induction cutPair sep text generalizing front with
  | case1 => cases h
  | case2 => cases h
  | case3 c d rest hpair =>
    obtain ⟨rfl, rfl⟩ := hpair
    cases h
    rfl
  | case4 c d rest hpair ih =>
    obtain ⟨⟨front', back'⟩, hrest, he⟩ := Option.map_eq_some_iff.1 h
    cases he
    rw [List.cons_append, ← ih hrest]

/-- A text whose parts all hold something has no pair of separators. -/
theorem cutPair_eq_none {text : List Char} (h : [] ∉ fields sep text) :
    cutPair sep text = none := by
  cases hcut : cutPair sep text with
  | none => rfl
  | some pair =>
    obtain ⟨front, back⟩ := pair
    rw [append_of_cutPair hcut, fields_append_cons, fields, if_pos rfl] at h
    exact absurd (List.mem_append_right _ List.mem_cons_self) h

/-- Nor does it end with the separator. -/
theorem getLast?_ne {text : List Char} (h : [] ∉ fields sep text) : text.getLast? ≠ some sep := by
  intro hlast
  obtain ⟨front, rfl⟩ := List.getLast?_eq_some_iff.1 hlast
  rw [fields_append_cons] at h
  exact h (List.mem_append_right _ List.mem_cons_self)

/-- Behind a text without a pair, which does not end with the separator, the next pair is the
first. -/
theorem cutPair_append {front : List Char} (h : cutPair sep front = none)
    (hlast : front.getLast? ≠ some sep) (back : List Char) :
    cutPair sep (front ++ sep :: sep :: back) = some (front, back) := by
  fun_induction cutPair sep front with
  | case1 => exact if_pos ⟨rfl, rfl⟩
  | case2 c =>
    have hc : c ≠ sep := fun he => hlast (he ▸ rfl)
    rw [List.cons_append, List.nil_append, cutPair, if_neg fun hp => hc hp.1, cutPair,
      if_pos ⟨rfl, rfl⟩]
    rfl
  | case3 => cases h
  | case4 c d rest hpair ih =>
    have hrest : cutPair sep (d :: rest ++ sep :: sep :: back) = some (d :: rest, back) := by
      refine ih (Option.map_eq_none_iff.1 h) ?_
      rw [List.getLast?_cons_cons] at hlast
      exact hlast
    rw [List.cons_append, List.cons_append, cutPair, if_neg hpair, ← List.cons_append, hrest]
    rfl

end SpanCourier
