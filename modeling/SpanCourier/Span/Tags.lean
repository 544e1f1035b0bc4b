import SpanCourier.Text.Utf8

set_option autoImplicit false

/-! # Tags

A finite map from texts to texts, kept as a list of entries in rising order of the keys' UTF-8
bytes, so each key stands once. `get?` is the view of the map: setting a key changes the value
at that key and at no other (`get?_insert`).
-/

namespace SpanCourier

/-- A key comes before another: its UTF-8 bytes come first in dictionary order. -/
def KeyLt (a b : String) : Prop := utf8 a < utf8 b

instance (a b : String) : Decidable (KeyLt a b) :=
  inferInstanceAs (Decidable (utf8 a < utf8 b))

theorem KeyLt.irrefl (a : String) : ¬ KeyLt a a := List.lt_irrefl _

theorem KeyLt.trans {a b c : String} (hab : KeyLt a b) (hbc : KeyLt b c) : KeyLt a c :=
  List.lt_trans hab hbc

theorem KeyLt.of_not {a b : String} (h : ¬ KeyLt a b) (hne : a ≠ b) : KeyLt b a := by
  have hle : utf8 b ≤ utf8 a := List.not_lt.1 h
  rcases List.le_iff_lt_or_eq.1 hle with hlt | heq
  · exact hlt
  · exact absurd (utf8_inj.1 heq).symm hne

/-- Tag entries in rising order of their keys. -/
structure Tags where
  entries : List (String × String) := []
  sorted : entries.Pairwise fun a b => KeyLt a.1 b.1 := by simp
deriving DecidableEq

namespace Tags

/-- No tags. -/
def empty : Tags := {}

instance : Inhabited Tags := ⟨empty⟩

/-- Puts an entry in its place among sorted entries, over an entry of the same key. -/
def put (key value : String) : List (String × String) → List (String × String)
  | [] => [(key, value)]
  | entry :: rest =>
    if KeyLt key entry.1 then (key, value) :: entry :: rest
    else if key = entry.1 then (key, value) :: rest
    else entry :: put key value rest

theorem mem_put {key value : String} {entries : List (String × String)} {e : String × String}
    (h : e ∈ put key value entries) : e = (key, value) ∨ e ∈ entries := by
  induction entries with
  | nil => simpa [put] using h
  | cons entry rest ih =>
    rw [put] at h
    split at h
    · simpa using h
    · split at h
      · rcases List.mem_cons.1 h with h | h
        · exact .inl h
        · exact .inr (List.mem_cons_of_mem _ h)
      · rcases List.mem_cons.1 h with h | h
        · exact .inr (h ▸ List.mem_cons_self)
        · exact (ih h).imp id (List.mem_cons_of_mem _)

theorem pairwise_put (key value : String) {entries : List (String × String)}
    (h : entries.Pairwise fun a b => KeyLt a.1 b.1) :
    (put key value entries).Pairwise fun a b => KeyLt a.1 b.1 := by
  induction entries with
  | nil => simp [put]
  | cons entry rest ih =>
    have hrest := List.pairwise_cons.1 h
    rw [put]
    split
    · next hlt =>
      refine List.pairwise_cons.2 ⟨fun e he => ?_, h⟩
      rcases List.mem_cons.1 he with rfl | he
      · exact hlt
      · exact hlt.trans (hrest.1 e he)
    · split
      · next heq => exact List.pairwise_cons.2 ⟨fun e he => heq ▸ hrest.1 e he, hrest.2⟩
      · next hnlt hne =>
        refine List.pairwise_cons.2 ⟨fun e he => ?_, ih hrest.2⟩
        rcases mem_put he with rfl | he
        · exact KeyLt.of_not hnlt hne
        · exact hrest.1 e he

/-- Sets a tag, over an earlier value of the same key. -/
def insert (tags : Tags) (key value : String) : Tags where
  entries := put key value tags.entries
  sorted := pairwise_put key value tags.sorted

/-- The value under a key. -/
def get? (tags : Tags) (key : String) : Option String :=
  (tags.entries.find? fun entry => entry.1 = key).map (·.2)

/-- A key has a value. -/
def contains (tags : Tags) (key : String) : Bool := tags.entries.any fun entry => entry.1 = key

/-- Sets several tags, one after the other. -/
def insertAll (tags : Tags) (entries : List (String × String)) : Tags :=
  entries.foldl (fun t entry => t.insert entry.1 entry.2) tags

@[simp] theorem get?_empty (key : String) : empty.get? key = none := rfl

theorem find?_put (key value other : String) (entries : List (String × String)) :
    ((put key value entries).find? fun entry => entry.1 = other) =
      if other = key then some (key, value) else entries.find? fun entry => entry.1 = other := by
  induction entries with
  | nil =>
    by_cases h : other = key
    · simp [put, h]
    · simp [put, h, Ne.symm h]
  | cons entry rest ih =>
    rw [put]
    by_cases h : other = key
    · subst h
      split
      · simp
      · split
        · simp
        · next hne => simp [Ne.symm hne, ih]
    · split
      · simp [List.find?_cons, Ne.symm h]
      · split
        · next heq => simp [Ne.symm h, ← heq]
        · simp [List.find?_cons, h, ih]

theorem get?_insert (tags : Tags) (key value other : String) :
    (tags.insert key value).get? other = if other = key then some value else tags.get? other := by
  rw [get?, insert, find?_put]
  split <;> rfl

theorem contains_eq (tags : Tags) (key : String) : tags.contains key = (tags.get? key).isSome := by
  rw [Bool.eq_iff_iff]
  simp [contains, get?]

end Tags

end SpanCourier
