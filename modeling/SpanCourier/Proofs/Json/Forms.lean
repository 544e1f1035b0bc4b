import Mathlib.Data.List.Nodup
import Mathlib.Data.List.Perm.Basic
import SpanCourier.Json.Shape
import SpanCourier.Proofs.Json.Words

set_option autoImplicit false

/-! # The forms of a value, and how they are read

A value of a known shape may be written in several forms: every record in it, at whatever depth, as
the object of its fields in any order or as the list of its fields in order (`Shape.Form`). The
reader of the shape takes the words of a form off the front of any words and gives the value in its
own order (`Shape.readsForms`), so the text of every form is read back (`Shape.parse_render`). A
record can be read in any order because no name stands twice in it (`Shape.Distinct`).
-/

namespace SpanCourier.Json

open Value

/-! ## Forms -/

mutual

/-- The first value is a form of the second: each record stands as an object of its fields in any
order or as the list of its fields in order, and all else stands as it is. -/
def Shape.Form : Shape → Value → Value → Prop
  | .text, form, value => ∃ s, form = .text s ∧ value = .text s
  | .flag, form, value => ∃ b, form = .flag b ∧ value = .flag b
  | .number bound, form, value => ∃ n < bound, form = .number n ∧ value = .number n
  | .choice names, form, value => ∃ name ∈ names, form = .text name ∧ value = .text name
  | .optional inner, form, value => form = .null ∧ value = .null ∨ inner.Form form value
  | .list inner, form, value =>
    ∃ forms values, form = .list forms ∧ value = .list values
      ∧ List.Forall₂ inner.Form forms values
  | .map inner, form, value =>
    ∃ forms values, form = .object forms ∧ value = .object values
      ∧ List.Forall₂ (fun f v => f.1 = v.1 ∧ inner.Form f.2 v.2) forms values
  | .record _ fields, form, value =>
    ∃ forms values, Shape.FieldForms fields forms values ∧ value = .object values
      ∧ ((∃ entries, entries.Perm forms ∧ form = .object entries)
        ∨ form = .list (forms.map Prod.snd))

/-- Forms of the fields of a record, each under its name. -/
def Shape.FieldForms :
    List (String × Shape) → List (String × Value) → List (String × Value) → Prop
  | [], [], [] => True
  | (name, shape) :: fields, (key, form) :: forms, (key', value) :: values =>
    key = name ∧ key' = name ∧ shape.Form form value ∧ Shape.FieldForms fields forms values
  | _, _, _ => False

end

mutual

/-- In each record of a shape no name stands twice. -/
def Shape.Distinct : Shape → Prop
  | .optional inner => inner.Distinct
  | .list inner => inner.Distinct
  | .map inner => inner.Distinct
  | .record _ fields => (fields.map Prod.fst).Nodup ∧ Shape.FieldsDistinct fields
  | _ => True

/-- No name stands twice in the records among some fields. -/
def Shape.FieldsDistinct : List (String × Shape) → Prop
  | [] => True
  | (_, shape) :: fields => shape.Distinct ∧ Shape.FieldsDistinct fields

end

/-! ## What the words of a value start with -/

/-- A value starts with a word, and not with the end of a list; only null starts with null. -/
theorem exists_words_eq (value : Value) :
    ∃ first more, value.words = first :: more ∧ first ≠ .closeBracket
      ∧ (first = .null → value = .null) := by
  cases value <;> exact ⟨_, _, rfl, by simp, by simp⟩

theorem itemWords_cons (item : Value) (items : List Value) :
    itemWords (item :: items) = item.words ++ items.flatMap fun next => .comma :: next.words := by
  induction items generalizing item with
  | nil => simp [itemWords]
  | cons next items ih =>
    rw [itemWords, ih, List.flatMap_cons, List.cons_append]
    exact List.cons_ne_nil _ _

/-- The words of an entry of an object. -/
def entryWord (entry : String × Value) : List Token :=
  .text (some entry.1) :: .colon :: entry.2.words

theorem entryWords_cons (entry : String × Value) (entries : List (String × Value)) :
    entryWords (entry :: entries) =
      entryWord entry ++ entries.flatMap fun next => .comma :: entryWord next := by
  induction entries generalizing entry with
  | nil => simp [entryWords, entryWord]
  | cons next entries ih =>
    rw [entryWords, ih, List.flatMap_cons, List.cons_append]
    · rfl
    · exact List.cons_ne_nil _ _

theorem length_le_length_flatMap {α : Type} (words : α → List Token) (items : List α) :
    items.length ≤ (items.flatMap fun item => .comma :: words item).length := by
  induction items with
  | nil => exact Nat.zero_le _
  | cons item items ih =>
    simp only [List.flatMap_cons, List.length_append, List.length_cons]
    omega

/-- There are as many words as items, so fuel for the words is enough for the items. -/
theorem length_le_length_itemWords (items : List Value) (rest : List Token) :
    items.length ≤ (itemWords items ++ rest).length := by
  cases items with
  | nil => exact Nat.zero_le _
  | cons item items =>
    obtain ⟨first, more, hwords, -⟩ := exists_words_eq item
    have hitems := length_le_length_flatMap words items
    simp only [itemWords_cons, hwords, List.length_append, List.length_cons]
    omega

theorem length_le_length_entryWords (entries : List (String × Value)) (rest : List Token) :
    entries.length ≤ (entryWords entries ++ rest).length := by
  cases entries with
  | nil => exact Nat.zero_le _
  | cons entry entries =>
    have hentries := length_le_length_flatMap entryWord entries
    simp only [entryWords_cons, entryWord, List.length_append, List.length_cons] at hentries ⊢
    omega

/-! ## Readers -/

/-- A reader takes a form off the front of any words, and gives the value. -/
def Reads (read : Reader) (form value : Value) : Prop :=
  ∀ rest, read (form.words ++ rest) = .ok (value, rest)

@[simp] theorem Problem.ok_bind {α β : Type} (a : α) (f : α → Except Problem β) :
    (.ok a : Except Problem α) >>= f = f a := rfl

theorem readItems_itemWords {read : Reader} {forms values : List Value}
    (h : List.Forall₂ (Reads read) forms values) (hne : forms ≠ []) {fuel : Nat}
    (hfuel : forms.length ≤ fuel) (rest : List Token) :
    readItems read fuel (itemWords forms ++ .closeBracket :: rest) = .ok (values, rest) := by
  induction h generalizing fuel with
  | nil => exact absurd rfl hne
  | @cons form value forms values hread hreads ih =>
    obtain ⟨fuel, rfl⟩ := Nat.exists_eq_succ_of_ne_zero (Nat.ne_zero_of_lt hfuel)
    -- after the item stands the end of the list, or a comma and the items that are left
    rw [itemWords_cons, List.append_assoc, readItems, hread, Problem.ok_bind]
    cases hreads with
    | nil => rfl
    | cons hnext hmore =>
      have hrest := ih (List.cons_ne_nil _ _) (Nat.le_of_succ_le_succ hfuel)
      rw [itemWords_cons, List.append_assoc] at hrest
      simp only [List.flatMap_cons, List.cons_append, List.append_assoc, hrest]
      rfl

theorem readEntries_entryWords {read : Reader} {forms values : List (String × Value)}
    (h : List.Forall₂ (fun f v => f.1 = v.1 ∧ Reads read f.2 v.2) forms values)
    (hne : forms ≠ []) {fuel : Nat} (hfuel : forms.length ≤ fuel) (rest : List Token) :
    readEntries read fuel (entryWords forms ++ .closeBrace :: rest) = .ok (values, rest) := by
  induction h generalizing fuel with
  | nil => exact absurd rfl hne
  | @cons form value forms values hread hreads ih =>
    obtain ⟨fuel, rfl⟩ := Nat.exists_eq_succ_of_ne_zero (Nat.ne_zero_of_lt hfuel)
    obtain ⟨key, form⟩ := form
    obtain ⟨key', value⟩ := value
    obtain ⟨rfl, hread⟩ : key = key' ∧ Reads read form value := hread
    rw [entryWords_cons, entryWord, List.append_assoc, List.cons_append, List.cons_append,
      readEntries, expect, if_pos rfl, Problem.ok_bind, hread, Problem.ok_bind]
    cases hreads with
    | nil => rfl
    | cons hnext hmore =>
      have hrest := ih (List.cons_ne_nil _ _) (Nat.le_of_succ_le_succ hfuel)
      rw [entryWords_cons, List.append_assoc] at hrest
      simp only [List.flatMap_cons, List.cons_append, List.append_assoc, hrest]
      rfl

/-- The fields of an object are read in the order in which they stand. -/
theorem readFields_entryWords {readers : List (String × Reader)}
    {forms values : List (String × Value)}
    (h : List.Forall₂ (fun f v => f.1 = v.1
      ∧ ∃ read, readers.lookup f.1 = some read ∧ Reads read f.2 v.2) forms values)
    (hne : forms ≠ []) (hnodup : (values.map Prod.fst).Nodup) {fuel : Nat}
    (hfuel : forms.length ≤ fuel) {seen : List (String × Value)}
    (hseen : ∀ key ∈ values.map Prod.fst, seen.lookup key = none) (rest : List Token) :
    readFields readers fuel seen (entryWords forms ++ .closeBrace :: rest) =
      .ok (values.reverse ++ seen, rest) := by
  induction h generalizing fuel seen with
  | nil => exact absurd rfl hne
  | @cons form value forms values hread hreads ih =>
    obtain ⟨fuel, rfl⟩ := Nat.exists_eq_succ_of_ne_zero (Nat.ne_zero_of_lt hfuel)
    obtain ⟨key, form⟩ := form
    obtain ⟨key', value⟩ := value
    obtain ⟨rfl, read, hlookup, hread⟩ : key = key'
      ∧ ∃ read, readers.lookup key = some read ∧ Reads read form value := hread
    -- the field is new, so it is read, and from then on it is among those seen
    have hnew : seen.lookup key = none := hseen key (by simp)
    rw [entryWords_cons, entryWord, List.append_assoc, List.cons_append, List.cons_append,
      readFields]
    simp only [hlookup, hnew, Option.isSome_none, Bool.false_eq_true, if_false]
    rw [expect, if_pos rfl, Problem.ok_bind, hread, Problem.ok_bind, pure_bind]
    cases hreads with
    | nil => rfl
    | @cons _ next _ values hnext hmore =>
      have hnodup' := List.nodup_cons.1 hnodup
      have hseen' : ∀ k ∈ (next :: values).map Prod.fst,
          ((key, value) :: seen).lookup k = none := by
        intro k hk
        have hne : k ≠ key := fun heq => hnodup'.1 (heq ▸ hk)
        simpa [List.lookup_cons, beq_eq_false_iff_ne.2 hne] using
          hseen k (List.mem_cons_of_mem _ hk)
      have hrest := ih (List.cons_ne_nil _ _) hnodup'.2 (Nat.le_of_succ_le_succ hfuel) hseen'
      rw [entryWords_cons, List.append_assoc] at hrest
      simp only [List.flatMap_cons, List.cons_append, List.append_assoc, hrest]
      simp

/-- One field of a list is read, with the comma before it unless it is the first. -/
theorem readRow_cons (lenient first : Bool) {name : String} {read : Reader}
    {readers : List (String × Reader)} {words front back rest : List Token} {item : Value}
    {items : List (String × Value)} (hne : words.head? ≠ some .closeBracket)
    (hfront : (if first then pure words else expect .comma words) = .ok front)
    (hread : read front = .ok (item, back))
    (hrow : readRow lenient false readers back = .ok (items, rest)) :
    readRow lenient first ((name, read) :: readers) words = .ok ((name, item) :: items, rest) := by
  rw [readRow]
  · cases first with
    | true =>
      obtain rfl : words = front := Except.ok.inj hfront
      simp only [if_true, pure_bind, hread, Problem.ok_bind, hrow]
      rfl
    | false =>
      have hfront : expect .comma words = .ok front := hfront
      simp only [Bool.false_eq_true, if_false, hfront, Problem.ok_bind, hread, hrow]
      rfl
  · rintro rest rfl
    exact hne rfl

/-! ## Fields -/

theorem lookup_eq_some_of_mem {β : Type} {entries : List (String × β)}
    (hnodup : (entries.map Prod.fst).Nodup) {key : String} {item : β}
    (hmem : (key, item) ∈ entries) : entries.lookup key = some item := by
  obtain ⟨front, back, rfl⟩ := List.append_of_mem hmem
  refine List.lookup_eq_some_iff.2 ⟨front, back, rfl, fun entry hentry => ?_⟩
  rw [List.map_append, List.map_cons, List.nodup_append] at hnodup
  have hne := hnodup.2.2 entry.1 (List.mem_map_of_mem hentry) key (by simp)
  simpa using hne.symm

theorem Shape.readers_eq_map (fields : List (String × Shape)) :
    Shape.readers fields = fields.map fun field => (field.1, field.2.read) := by
  induction fields with
  | nil => rfl
  | cons field fields ih => rw [readers, List.map_cons, ih]

namespace Shape

theorem fieldForms_nil_iff {forms values : List (String × Value)} :
    FieldForms [] forms values ↔ forms = [] ∧ values = [] := by
  cases forms <;> cases values <;> simp [FieldForms]

theorem fieldForms_cons_iff {name : String} {shape : Shape} {fields : List (String × Shape)}
    {forms values : List (String × Value)} :
    FieldForms ((name, shape) :: fields) forms values ↔
      ∃ form forms' value values', forms = (name, form) :: forms'
        ∧ values = (name, value) :: values' ∧ shape.Form form value
        ∧ FieldForms fields forms' values' := by
  constructor
  · intro h
    rcases forms with - | ⟨⟨key, form⟩, forms⟩
    · simp [FieldForms] at h
    · rcases values with - | ⟨⟨key', value⟩, values⟩
      · simp [FieldForms] at h
      · obtain ⟨rfl, rfl, hform, hforms⟩ := h
        exact ⟨form, forms, value, values, rfl, rfl, hform, hforms⟩
  · rintro ⟨form, forms, value, values, rfl, rfl, hform, hforms⟩
    exact ⟨rfl, rfl, hform, hforms⟩

variable {fields : List (String × Shape)} {forms values : List (String × Value)}

theorem FieldForms.names_eq (h : FieldForms fields forms values) :
    forms.map Prod.fst = fields.map Prod.fst ∧ values.map Prod.fst = fields.map Prod.fst := by
  induction fields generalizing forms values with
  | nil =>
    obtain ⟨rfl, rfl⟩ := fieldForms_nil_iff.1 h
    exact ⟨rfl, rfl⟩
  | cons field fields ih =>
    obtain ⟨form, forms, value, values, rfl, rfl, -, hforms⟩ := fieldForms_cons_iff.1 h
    simp [ih hforms]

/-- Each form and its value belong to a field of their name. -/
theorem FieldForms.forall₂ (h : FieldForms fields forms values) :
    List.Forall₂ (fun f v => f.1 = v.1 ∧ ∃ shape, (f.1, shape) ∈ fields ∧ shape.Form f.2 v.2)
      forms values := by
  induction fields generalizing forms values with
  | nil =>
    obtain ⟨rfl, rfl⟩ := fieldForms_nil_iff.1 h
    exact .nil
  | cons field fields ih =>
    obtain ⟨form, forms, value, values, rfl, rfl, hform, hforms⟩ := fieldForms_cons_iff.1 h
    refine .cons ⟨rfl, field.2, List.mem_cons_self, hform⟩ ((ih hforms).imp ?_)
    rintro f v ⟨hname, shape, hmem, hform⟩
    exact ⟨hname, shape, List.mem_cons_of_mem _ hmem, hform⟩

/-- Fields that were all read are put in the order of the shape. -/
theorem FieldForms.arrange_eq (h : FieldForms fields forms values) (lenient : Bool)
    {seen : List (String × Value)} (hseen : ∀ v ∈ values, seen.lookup v.1 = some v.2) :
    arrange lenient seen fields = .ok values := by
  induction fields generalizing forms values with
  | nil =>
    obtain ⟨rfl, rfl⟩ := fieldForms_nil_iff.1 h
    rfl
  | cons field fields ih =>
    obtain ⟨form, forms, value, values, rfl, rfl, -, hforms⟩ := fieldForms_cons_iff.1 h
    have hvalue : seen.lookup field.1 = some value := hseen _ List.mem_cons_self
    have hrest := ih hforms fun v hv => hseen v (List.mem_cons_of_mem _ hv)
    simp [arrange, hvalue, hrest]

/-- Every form of a value of the shape is read, and gives the value. -/
def ReadsForms (shape : Shape) : Prop :=
  ∀ form value, shape.Form form value → Reads shape.read form value

/-- The fields of a list after the first are read one after the other, up to its end. -/
theorem FieldForms.readRow_eq (h : FieldForms fields forms values) (lenient : Bool)
    (hread : ∀ field ∈ fields, ReadsForms field.2) (rest : List Token) :
    readRow lenient false (readers fields)
        ((forms.map Prod.snd).flatMap (fun form => .comma :: form.words) ++ .closeBracket :: rest) =
      .ok (values, rest) := by
  induction fields generalizing forms values with
  | nil =>
    obtain ⟨rfl, rfl⟩ := fieldForms_nil_iff.1 h
    rfl
  | cons field fields ih =>
    obtain ⟨form, forms, value, values, rfl, rfl, hform, hforms⟩ := fieldForms_cons_iff.1 h
    have hrest := ih hforms fun field hfield => hread field (List.mem_cons_of_mem _ hfield)
    have hfield := hread field List.mem_cons_self form value hform
    rw [readers, List.map_cons, List.flatMap_cons, List.append_assoc]
    exact readRow_cons lenient false (by simp) rfl (hfield _) hrest

/-- A record that is written as a list is read field by field. -/
theorem FieldForms.readRow_first_eq (h : FieldForms fields forms values) (lenient : Bool)
    (hread : ∀ field ∈ fields, ReadsForms field.2) (rest : List Token) :
    readRow lenient true (readers fields)
        (itemWords (forms.map Prod.snd) ++ .closeBracket :: rest) = .ok (values, rest) := by
  cases fields with
  | nil =>
    obtain ⟨rfl, rfl⟩ := fieldForms_nil_iff.1 h
    rfl
  | cons field fields =>
    obtain ⟨form, forms, value, values, rfl, rfl, hform, hforms⟩ := fieldForms_cons_iff.1 h
    have hrest := hforms.readRow_eq lenient (fun field hfield =>
      hread field (List.mem_cons_of_mem _ hfield)) rest
    have hfield := hread field List.mem_cons_self form value hform
    obtain ⟨word, more, hwords, hclose, -⟩ := exists_words_eq form
    rw [readers, List.map_cons, itemWords_cons, List.append_assoc]
    exact readRow_cons lenient true (by simp [hwords, hclose]) rfl (hfield _) hrest

/-- A record that is written as an object is read in whatever order its fields stand. -/
theorem FieldForms.readFields_eq (h : FieldForms fields forms values)
    (hread : ∀ field ∈ fields, ReadsForms field.2) (hnodup : (fields.map Prod.fst).Nodup)
    {entries : List (String × Value)} (hperm : entries.Perm forms) (hne : entries ≠ [])
    {fuel : Nat} (hfuel : entries.length ≤ fuel) (rest : List Token) :
    ∃ seen, readFields (readers fields) fuel [] (entryWords entries ++ .closeBrace :: rest) =
        .ok (seen, rest)
      ∧ ∀ v ∈ values, seen.lookup v.1 = some v.2 := by
  -- the values are taken in the order in which their forms stand
  obtain ⟨values', hforms, hperm'⟩ := List.perm_comp_forall₂ hperm h.forall₂
  have hkeys : (values'.map Prod.fst).Nodup := by
    rw [(hperm'.map Prod.fst).nodup_iff, h.names_eq.2]
    exact hnodup
  have hreaders : ((readers fields).map Prod.fst).Nodup := by
    simpa [readers_eq_map, Function.comp_def] using hnodup
  have hentries : List.Forall₂ (fun f v => f.1 = v.1
      ∧ ∃ read, (readers fields).lookup f.1 = some read ∧ Reads read f.2 v.2) entries values' := by
    refine hforms.imp ?_
    rintro f v ⟨hname, shape, hmem, hform⟩
    refine ⟨hname, shape.read, lookup_eq_some_of_mem hreaders ?_, hread _ hmem _ _ hform⟩
    rw [readers_eq_map]
    exact List.mem_map.2 ⟨_, hmem, rfl⟩
  refine ⟨_, readFields_entryWords hentries hne hkeys hfuel (by simp) rest, fun v hv => ?_⟩
  rw [List.append_nil]
  refine lookup_eq_some_of_mem ?_ (List.mem_reverse.2 (hperm'.mem_iff.2 hv))
  rw [List.map_reverse]
  exact List.nodup_reverse.2 hkeys

end Shape

/-! ## Shapes -/

namespace Shape

/-- Null is a form of nothing else. -/
theorem Form.eq_null : ∀ {shape : Shape} {value : Value}, shape.Form .null value → value = .null
  | .optional _, _, .inl h => h.2
  | .optional _, _, .inr h => Form.eq_null h
  | .text, _, h | .flag, _, h | .number _, _, h | .choice _, _, h | .list _, _, h | .map _, _, h
  | .record _ _, _, h => by simp [Form] at h

theorem ReadsForms.optional {inner : Shape} (h : inner.ReadsForms) :
    ReadsForms (.optional inner) := by
  rintro form value (⟨rfl, rfl⟩ | hform) rest
  · rfl
  · have hread := h form value hform rest
    obtain ⟨first, more, hwords, -, hnull⟩ := exists_words_eq form
    by_cases hfirst : first = .null
    · -- null is read as null, whatever the inner shape
      obtain rfl := hnull hfirst
      rw [hform.eq_null]
      rfl
    · rw [hwords, List.cons_append] at hread ⊢
      simp only [read]
      split
      · next heq => exact absurd (List.cons.inj heq).1 hfirst
      · exact hread

theorem read_list_of_readItems {inner : Shape} {words rest : List Token} {items : List Value}
    (hne : words.head? ≠ some .closeBracket)
    (h : readItems inner.read words.length words = .ok (items, rest)) :
    (Shape.list inner).read (.openBracket :: words) = .ok (.list items, rest) := by
  simp only [read]
  split
  · next heq => exact absurd (congrArg List.head? (List.cons.inj heq).2) hne
  · next heq =>
    obtain ⟨-, rfl⟩ := List.cons.inj heq
    rw [h]
    rfl
  · next heq => exact absurd rfl (heq _)

theorem read_map_of_readEntries {inner : Shape} {words rest : List Token}
    {entries : List (String × Value)} (hne : words.head? ≠ some .closeBrace)
    (h : readEntries inner.read words.length words = .ok (entries, rest)) :
    (Shape.map inner).read (.openBrace :: words) = .ok (.object entries, rest) := by
  simp only [read]
  split
  · next heq => exact absurd (congrArg List.head? (List.cons.inj heq).2) hne
  · next heq =>
    obtain ⟨-, rfl⟩ := List.cons.inj heq
    rw [h]
    rfl
  · next heq => exact absurd rfl (heq _)

theorem read_record_of_readFields {lenient : Bool} {fields : List (String × Shape)}
    {words rest : List Token} {seen values : List (String × Value)}
    (hne : words.head? ≠ some .closeBrace)
    (h : readFields (readers fields) words.length [] words = .ok (seen, rest))
    (harrange : arrange lenient seen fields = .ok values) :
    (Shape.record lenient fields).read (.openBrace :: words) = .ok (.object values, rest) := by
  simp only [read]
  split
  · next heq => cases heq
  · next heq => exact absurd (congrArg List.head? (List.cons.inj heq).2) hne
  · next heq =>
    obtain ⟨-, rfl⟩ := List.cons.inj heq
    rw [h, Problem.ok_bind, harrange]
    rfl
  · next heq => exact absurd rfl (heq _)

theorem ReadsForms.list {inner : Shape} (h : inner.ReadsForms) : ReadsForms (.list inner) := by
  rintro _ _ ⟨forms, values, rfl, rfl, hforms⟩ rest
  cases forms with
  | nil =>
    cases hforms
    rfl
  | cons form forms =>
    have hread := readItems_itemWords (hforms.imp h) (List.cons_ne_nil _ _)
      (length_le_length_itemWords _ (.closeBracket :: rest)) rest
    obtain ⟨first, more, hwords, hclose, -⟩ := exists_words_eq form
    rw [words, List.cons_append, List.cons_append, List.append_assoc, List.singleton_append]
    refine read_list_of_readItems ?_ hread
    simp [itemWords_cons, hwords, hclose]

theorem ReadsForms.map {inner : Shape} (h : inner.ReadsForms) : ReadsForms (.map inner) := by
  rintro _ _ ⟨forms, values, rfl, rfl, hforms⟩ rest
  cases forms with
  | nil =>
    cases hforms
    rfl
  | cons form forms =>
    have hread := readEntries_entryWords (hforms.imp fun _ _ hf => ⟨hf.1, h _ _ hf.2⟩)
      (List.cons_ne_nil _ _) (length_le_length_entryWords _ (.closeBrace :: rest)) rest
    rw [words, List.cons_append, List.cons_append, List.append_assoc, List.singleton_append]
    refine read_map_of_readEntries ?_ hread
    simp [entryWords_cons, entryWord]

theorem ReadsForms.record {lenient : Bool} {fields : List (String × Shape)}
    (hnodup : (fields.map Prod.fst).Nodup) (hread : ∀ field ∈ fields, ReadsForms field.2) :
    ReadsForms (.record lenient fields) := by
  rintro form _ ⟨forms, values, hforms, rfl, ⟨entries, hperm, rfl⟩ | rfl⟩ rest
  · cases entries with
    | nil =>
      obtain rfl := hperm.symm.eq_nil
      have hvalues : values = [] := by
        simpa using hforms.names_eq.2.trans hforms.names_eq.1.symm
      have harrange : arrange lenient [] fields = .ok values :=
        hforms.arrange_eq lenient (by simp [hvalues])
      simp only [words, entryWords, List.cons_append, List.nil_append, read, harrange,
        Problem.ok_bind]
      rfl
    | cons entry entries =>
      obtain ⟨seen, hseen, hlookup⟩ := hforms.readFields_eq hread hnodup hperm
        (List.cons_ne_nil _ _) (length_le_length_entryWords _ (.closeBrace :: rest)) rest
      rw [words, List.cons_append, List.cons_append, List.append_assoc, List.singleton_append]
      refine read_record_of_readFields ?_ hseen (hforms.arrange_eq lenient hlookup)
      simp [entryWords_cons, entryWord]
  · have hrow := hforms.readRow_first_eq lenient hread rest
    simp only [words, List.cons_append, List.append_assoc, List.nil_append, read, hrow,
      Problem.ok_bind]
    rfl

mutual

/-- Every form of a value is read, and gives the value. -/
theorem readsForms : ∀ (shape : Shape), shape.Distinct → shape.ReadsForms
  | .text, _ => by
    rintro _ _ ⟨s, rfl, rfl⟩ rest
    rfl
  | .flag, _ => by
    rintro _ _ ⟨b, rfl, rfl⟩ rest
    rfl
  | .number bound, _ => by
    rintro _ _ ⟨n, hn, rfl, rfl⟩ rest
    exact if_pos hn
  | .choice names, _ => by
    rintro _ _ ⟨name, hname, rfl, rfl⟩ rest
    exact if_pos hname
  | .optional inner, hdistinct => (readsForms inner hdistinct).optional
  | .list inner, hdistinct => (readsForms inner hdistinct).list
  | .map inner, hdistinct => (readsForms inner hdistinct).map
  | .record _ fields, hdistinct => .record hdistinct.1 (fields_readForms fields hdistinct.2)

theorem fields_readForms : ∀ (fields : List (String × Shape)), FieldsDistinct fields →
    ∀ field ∈ fields, ReadsForms field.2
  | [], _, _, hfield => absurd hfield List.not_mem_nil
  | (name, shape) :: fields, hdistinct, field, hfield => by
    rcases List.mem_cons.1 hfield with rfl | hfield
    · exact readsForms shape hdistinct.1
    · exact fields_readForms fields hdistinct.2 field hfield

end

/-- The text of every form of a value is read, and gives the value. -/
theorem parse_render {shape : Shape} (hdistinct : shape.Distinct) {form value : Value}
    (h : shape.Form form value) : shape.parse (String.ofList form.render) = .ok value := by
  have hread := readsForms shape hdistinct form value h []
  rw [List.append_nil] at hread
  rw [parse, String.toList_ofList, tokens_render, hread]
  rfl

end Shape

end SpanCourier.Json
