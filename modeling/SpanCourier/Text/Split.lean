set_option autoImplicit false

/-! # Cutting a text at a separator

`fields` cuts at every separator, `splitLast` at the last one and `cutPair` at the first place
where the separator stands twice in a row. Each keeps every other character, in order.
-/

namespace SpanCourier

/-- The parts between separators: one more than there are separators. -/
def fields (sep : Char) : List Char → List (List Char)
  | [] => [[]]
  | c :: rest =>
    if c = sep then [] :: fields sep rest
    else match fields sep rest with
      | [] => [[c]]
      | part :: parts => (c :: part) :: parts

/-- Parts with one separator between each two: what `fields` takes apart. -/
def joinFields (sep : Char) : List (List Char) → List Char
  | [] => []
  | [part] => part
  | part :: parts => part ++ sep :: joinFields sep parts

/-- The text through its last separator, and what follows it; nothing if there is none. -/
def splitLast (sep : Char) : List Char → Option (List Char × List Char)
  | [] => none
  | c :: rest =>
    match splitLast sep rest with
    | some (front, back) => some (c :: front, back)
    | none => if c = sep then some ([c], rest) else none

/-- The text before the first doubled separator, and the text after it. -/
def cutPair (sep : Char) : List Char → Option (List Char × List Char)
  | [] => none
  | [_] => none
  | c :: d :: rest =>
    if c = sep ∧ d = sep then some ([], rest)
    else (cutPair sep (d :: rest)).map fun (front, back) => (c :: front, back)

theorem fields_ne_nil (sep : Char) (s : List Char) : fields sep s ≠ [] := by
  cases s with
  | nil => simp [fields]
  | cons c rest =>
    rw [fields]
    split
    · simp
    · split <;> simp

theorem joinFields_fields (sep : Char) (s : List Char) : joinFields sep (fields sep s) = s := by
  induction s with
  | nil => rfl
  | cons c rest ih =>
    have hne := fields_ne_nil sep rest
    rw [fields]
    match hf : fields sep rest with
    | [] => exact absurd hf hne
    | part :: parts =>
      rw [hf] at ih
      split
      · next hc => simp [joinFields, ih, hc]
      · cases parts with
        | nil => simpa [joinFields] using ih
        | cons q qs => simpa [joinFields] using ih

theorem splitLast_append {sep : Char} {s front back : List Char}
    (h : splitLast sep s = some (front, back)) : front ++ back = s := by
  induction s generalizing front back with
  | nil => simp [splitLast] at h
  | cons c rest ih =>
    rw [splitLast] at h
    split at h
    · next f b hr =>
      obtain ⟨rfl, rfl⟩ := Prod.mk.inj (Option.some.inj h)
      simp [ih hr]
    · split at h
      · obtain ⟨rfl, rfl⟩ := Prod.mk.inj (Option.some.inj h)
        rfl
      · simp at h

end SpanCourier
