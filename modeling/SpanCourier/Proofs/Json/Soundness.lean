import SpanCourier.Proofs.Json.Forms

set_option autoImplicit false

/-! # What is read is of the shape

Whatever the words, a value that the reader of a shape gives is one that the shape admits
(`Shape.read_yields`): its numbers are below their bounds, its choices among the names, and each
entry of a record belongs to a field and is admitted by the shape of that field. A statement on what
a part of a reader yields assumes no more than what the readers that it calls yield.
-/

namespace SpanCourier.Json

/-- What comes of a reading, if it succeeds, is as `P` says. -/
def Yields {α : Type} (reading : Except Problem α) (P : α → Prop) : Prop :=
  ∀ a, reading = .ok a → P a

namespace Yields

variable {α β : Type} {P : α → Prop}

theorem ok {a : α} (h : P a) : Yields (.ok a) P := fun _ heq => Except.ok.inj heq ▸ h

theorem error {problem : Problem} : Yields (.error problem) P := by
  intro a heq
  cases heq

theorem bind {reading : Except Problem α} {next : α → Except Problem β} {Q : β → Prop}
    (h : Yields reading P) (hnext : ∀ a, P a → Yields (next a) Q) :
    Yields (reading >>= next) Q := by
  intro b hb
  cases hreading : reading with
  | error problem =>
    rw [hreading] at hb
    cases hb
  | ok a =>
    rw [hreading] at hb
    exact hnext a (h a hreading) b hb

theorem any {reading : Except Problem α} : Yields reading fun _ => True := fun _ _ => trivial

end Yields

/-! ## Parts of readers -/

theorem readItems_yields {read : Reader} {P : Value → Prop}
    (hread : ∀ words, Yields (read words) fun x => P x.1) (fuel : Nat) (words : List Token) :
    Yields (readItems read fuel words) fun x => ∀ item ∈ x.1, P item := by
  induction fuel generalizing words with
  | zero => exact .error
  | succ fuel ih =>
    rw [readItems]
    refine (hread words).bind ?_
    rintro ⟨item, rest⟩ hitem
    dsimp only
    split
    · exact .ok (List.forall_mem_singleton.2 hitem)
    · exact (ih _).bind fun x hitems => .ok (List.forall_mem_cons.2 ⟨hitem, hitems⟩)
    · exact .error

theorem readEntries_yields {read : Reader} {P : String × Value → Prop}
    (hread : ∀ key words, Yields (read words) fun x => P (key, x.1)) (fuel : Nat)
    (words : List Token) :
    Yields (readEntries read fuel words) fun x => ∀ entry ∈ x.1, P entry := by
  induction fuel generalizing words with
  | zero => exact .error
  | succ fuel ih =>
    rw [readEntries.eq_def]
    split
    · next fuel key words heq =>
      obtain rfl := Nat.succ.inj heq
      refine Yields.any.bind fun words _ => (hread key words).bind ?_
      rintro ⟨item, rest⟩ hitem
      dsimp only
      split
      · exact .ok (List.forall_mem_singleton.2 hitem)
      · refine (ih _).bind ?_
        rintro ⟨entries, rest⟩ hentries
        exact .ok (List.forall_mem_cons.2 ⟨hitem, hentries⟩)
      · exact .error
    · exact .error

theorem mem_of_lookup_eq_some {β : Type} {entries : List (String × β)} {key : String} {item : β}
    (h : entries.lookup key = some item) : (key, item) ∈ entries := by
  obtain ⟨front, back, rfl, -⟩ := List.lookup_eq_some_iff.1 h
  exact List.mem_append_right _ List.mem_cons_self

/-- The entries that are read of an object were seen before, or are read by the reader of their
name. -/
theorem readFields_yields {readers : List (String × Reader)} {P : String × Value → Prop}
    (hread : ∀ reader ∈ readers, ∀ words, Yields (reader.2 words) fun x => P (reader.1, x.1))
    (fuel : Nat) {seen : List (String × Value)} (hseen : ∀ entry ∈ seen, P entry)
    (words : List Token) :
    Yields (readFields readers fuel seen words) fun x => ∀ entry ∈ x.1, P entry := by
  induction fuel generalizing seen words with
  | zero => exact .error
  | succ fuel ih =>
    rw [readFields.eq_def]
    split
    · next seen _ _ _ fuel key words heq =>
      obtain rfl := Nat.succ.inj heq
      dsimp only
      split
      · next read hlookup =>
        split
        · exact .error
        · have hfield := hread _ (mem_of_lookup_eq_some hlookup)
          refine Yields.any.bind fun words _ => (hfield words).bind ?_
          rintro ⟨item, rest⟩ hitem
          have hmore : ∀ entry ∈ (key, item) :: seen, P entry :=
            List.forall_mem_cons.2 ⟨hitem, hseen⟩
          simp only [pure_bind]
          split
          · exact .ok hmore
          · exact ih hmore _
          · exact .error
      · -- a field that no reader knows is passed over
        refine Yields.any.bind fun words _ => Yields.any.bind fun rest _ => ?_
        simp only [pure_bind]
        split
        · exact .ok hseen
        · exact ih hseen _
        · exact .error
    · exact .error

/-- The entries that are read of a list are read by the readers of their fields. -/
theorem readRow_yields (lenient : Bool) {P : String × Value → Prop}
    {readers : List (String × Reader)}
    (hread : ∀ reader ∈ readers, ∀ words, Yields (reader.2 words) fun x => P (reader.1, x.1))
    (first : Bool) (words : List Token) :
    Yields (readRow lenient first readers words) fun x => ∀ entry ∈ x.1, P entry := by
  induction readers generalizing first words with
  | nil =>
    rw [readRow]
    exact Yields.any.bind fun rest _ => .ok (List.forall_mem_nil _)
  | cons reader readers ih =>
    obtain ⟨hfirst, hmore⟩ := List.forall_mem_cons.1 hread
    by_cases hclose : words.head? = some .closeBracket
    · obtain ⟨rest, rfl⟩ := List.head?_eq_some_iff.1 hclose
      rw [readRow]
      split
      · exact .ok (List.forall_mem_nil _)
      · exact .error
    · have hfield : ∀ words, Yields (do
          let x ← reader.2 words
          let more ← readRow lenient false readers x.2
          return ((reader.1, x.1) :: more.1, more.2)) fun x => ∀ entry ∈ x.1, P entry := by
        intro words
        refine (hfirst words).bind ?_
        rintro ⟨item, rest⟩ hitem
        refine (ih hmore _ _).bind ?_
        rintro ⟨items, rest⟩ hitems
        exact .ok (List.forall_mem_cons.2 ⟨hitem, hitems⟩)
      rw [readRow]
      · split
        · exact Yields.any.bind fun words _ => hfield words
        · exact Yields.any.bind fun words _ => hfield words
      · rintro rest rfl
        exact hclose rfl

/-- The entries of a record were read, or are null for an optional field. -/
theorem arrange_yields (lenient : Bool) {P : String × Value → Prop} {seen : List (String × Value)}
    {fields : List (String × Shape)} (hseen : ∀ entry ∈ seen, P entry)
    (hnull : ∀ field ∈ fields, field.2.isOptional = true → P (field.1, .null)) :
    Yields (arrange lenient seen fields) fun entries => ∀ entry ∈ entries, P entry := by
  induction fields with
  | nil => exact .ok (List.forall_mem_nil _)
  | cons field fields ih =>
    obtain ⟨hfirst, hmore⟩ := List.forall_mem_cons.1 hnull
    have hrest := ih hmore
    rw [arrange]
    split
    · next item hlookup =>
      have hitem := hseen _ (mem_of_lookup_eq_some hlookup)
      exact hrest.bind fun entries h => .ok (List.forall_mem_cons.2 ⟨hitem, h⟩)
    · split
      · exact hrest
      · split
        · next hoptional =>
          exact hrest.bind fun entries h => .ok (List.forall_mem_cons.2 ⟨hfirst hoptional, h⟩)
        · exact .error

/-! ## Shapes -/

mutual

/-- A value is of a shape. -/
def Shape.Admits : Shape → Value → Prop
  | .text, value => ∃ s, value = .text s
  | .flag, value => ∃ b, value = .flag b
  | .number bound, value => ∃ n < bound, value = .number n
  | .choice names, value => ∃ name ∈ names, value = .text name
  | .optional inner, value => value = .null ∨ inner.Admits value
  | .list inner, value => ∃ items, value = .list items ∧ ∀ item ∈ items, inner.Admits item
  | .map inner, value =>
    ∃ entries, value = .object entries ∧ ∀ entry ∈ entries, inner.Admits entry.2
  | .record _ fields, value =>
    ∃ entries, value = .object entries ∧ ∀ entry ∈ entries, Shape.FieldAdmits fields entry

/-- An entry belongs to one of some fields, and its value is of the shape of that field. -/
def Shape.FieldAdmits : List (String × Shape) → String × Value → Prop
  | [], _ => False
  | (name, shape) :: fields, entry =>
    entry.1 = name ∧ shape.Admits entry.2 ∨ Shape.FieldAdmits fields entry

end

namespace Shape

theorem fieldAdmits_iff {fields : List (String × Shape)} {entry : String × Value} :
    FieldAdmits fields entry ↔ ∃ field ∈ fields, entry.1 = field.1 ∧ field.2.Admits entry.2 := by
  induction fields with
  | nil => simp [FieldAdmits]
  | cons field fields ih =>
    rw [FieldAdmits, ih]
    simp

/-- What a record holds under a name belongs to one of its fields. -/
theorem Admits.field {lenient : Bool} {fields : List (String × Shape)} {value item : Value}
    {name : String} (h : (record lenient fields).Admits value) (hget : value.get? name = some item) :
    FieldAdmits fields (name, item) := by
  obtain ⟨entries, rfl, hentries⟩ := h
  exact hentries _ (mem_of_lookup_eq_some hget)

theorem Admits.number?_lt {bound n : Nat} {value : Value} (h : (Shape.number bound).Admits value)
    (hn : value.number? = some n) : n < bound := by
  obtain ⟨m, hm, rfl⟩ := h
  obtain rfl := Option.some.inj hn
  exact hm

/-- An optional shape admits null. -/
theorem admits_null : ∀ {shape : Shape}, shape.isOptional = true → shape.Admits .null
  | .optional _, _ => .inl rfl

/-- The entries that are read of a record belong to its fields. -/
theorem read_record_yields (lenient : Bool) {fields : List (String × Shape)}
    (hread : ∀ field ∈ fields, ∀ words, Yields (field.2.read words) fun x => field.2.Admits x.1)
    (words : List Token) :
    Yields ((record lenient fields).read words) fun x => (record lenient fields).Admits x.1 := by
  have hreaders : ∀ reader ∈ readers fields, ∀ words,
      Yields (reader.2 words) fun x => FieldAdmits fields (reader.1, x.1) := by
    intro reader hreader words x hx
    rw [readers_eq_map] at hreader
    obtain ⟨field, hfield, rfl⟩ := List.mem_map.1 hreader
    exact fieldAdmits_iff.2 ⟨field, hfield, rfl, hread field hfield words x hx⟩
  have hnull : ∀ field ∈ fields, field.2.isOptional = true →
      FieldAdmits fields (field.1, .null) := fun field hfield hoptional =>
    fieldAdmits_iff.2 ⟨field, hfield, rfl, admits_null hoptional⟩
  rw [read]
  dsimp only
  split
  · refine (readRow_yields lenient hreaders true _).bind ?_
    rintro ⟨entries, rest⟩ hentries
    exact .ok ⟨entries, rfl, hentries⟩
  · exact (arrange_yields lenient (List.forall_mem_nil _) hnull).bind fun entries hentries =>
      .ok ⟨entries, rfl, hentries⟩
  · refine (readFields_yields hreaders _ (List.forall_mem_nil _) _).bind ?_
    rintro ⟨seen, rest⟩ hseen
    exact (arrange_yields lenient hseen hnull).bind fun entries hentries =>
      .ok ⟨entries, rfl, hentries⟩
  · exact .error

mutual

/-- What the reader of a shape gives is of the shape. -/
theorem read_yields : ∀ (shape : Shape) (words : List Token),
    Yields (shape.read words) fun x => shape.Admits x.1
  | .text, words => by
    rw [read]
    dsimp only
    split
    · exact .ok ⟨_, rfl⟩
    · exact .error
  | .flag, words => by
    rw [read]
    dsimp only
    split
    · exact .ok ⟨_, rfl⟩
    · exact .error
  | .number bound, words => by
    rw [read]
    dsimp only
    split
    · split
      · next h => exact .ok ⟨_, h, rfl⟩
      · exact .error
    · exact .error
  | .choice names, words => by
    rw [read, readChoice.eq_def]
    split
    · split
      · next h => exact .ok ⟨_, h, rfl⟩
      · exact .error
    · split
      · next h => exact .ok ⟨_, h, rfl⟩
      · exact .error
    · exact .error
  | .optional inner, words => by
    rw [read]
    dsimp only
    split
    · exact .ok (.inl rfl)
    · exact fun x hx => .inr (read_yields inner _ x hx)
  | .list inner, words => by
    rw [read]
    dsimp only
    split
    · exact .ok ⟨[], rfl, List.forall_mem_nil _⟩
    · refine (readItems_yields (read_yields inner) _ _).bind ?_
      rintro ⟨items, rest⟩ hitems
      exact .ok ⟨items, rfl, hitems⟩
    · exact .error
  | .map inner, words => by
    rw [read]
    dsimp only
    split
    · exact .ok ⟨[], rfl, List.forall_mem_nil _⟩
    · refine (readEntries_yields (P := fun entry => inner.Admits entry.2)
        (fun _ => read_yields inner) _ _).bind ?_
      rintro ⟨entries, rest⟩ hentries
      exact .ok ⟨entries, rfl, hentries⟩
    · exact .error
  | .record lenient fields, words => read_record_yields lenient (fields_read_yield fields) words

theorem fields_read_yield : ∀ (fields : List (String × Shape)), ∀ field ∈ fields, ∀ words,
    Yields (field.2.read words) fun x => field.2.Admits x.1
  | [], _, hfield => absurd hfield List.not_mem_nil
  | (name, shape) :: fields, field, hfield => by
    rcases List.mem_cons.1 hfield with rfl | hfield
    · exact read_yields shape
    · exact fields_read_yield fields field hfield

end

/-- What is read of a text is of the shape. -/
theorem admits_of_parse {shape : Shape} {text : String} {value : Value}
    (h : shape.parse text = .ok value) : shape.Admits value := by
  have hparse : Yields (shape.parse text) shape.Admits := by
    refine (read_yields shape _).bind ?_
    rintro ⟨value, rest⟩ hvalue
    dsimp only
    split
    · exact .ok hvalue
    · exact .error
  exact hparse value h

end Shape

end SpanCourier.Json
