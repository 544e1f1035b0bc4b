import SpanCourier.Encoder
import SpanCourier.Proofs.Json.Forms
import SpanCourier.Proofs.Span.Tags
import SpanCourier.Span.Json

set_option autoImplicit false

/-! # Spans are read back

What is written of a span is read as the span again, and so is every text in which its tags stand in
another order and its records in other forms (`Span.WrittenAs`): an object with its fields in any
order, or the list of them. Each type is written as a value that is a form of itself, and means what
was written.
-/

namespace SpanCourier

open Json

/-! ## Values that are forms of themselves -/

namespace Json.Shape

theorem form_object {lenient : Bool} {fields : List (String × Shape)}
    {values : List (String × Value)} (h : FieldForms fields values values) :
    Form (.record lenient fields) (.object values) (.object values) :=
  ⟨values, values, h, rfl, .inl ⟨values, .refl values, rfl⟩⟩

theorem FieldForms.nil : FieldForms [] [] [] := trivial

theorem FieldForms.cons {shape : Shape} {form value : Value} {fields : List (String × Shape)}
    {forms values : List (String × Value)} (name : String) (h : shape.Form form value)
    (hrest : FieldForms fields forms values) :
    FieldForms ((name, shape) :: fields) ((name, form) :: forms) ((name, value) :: values) :=
  ⟨rfl, rfl, h, hrest⟩

theorem form_text (s : String) : Form .text (.text s) (.text s) := ⟨s, rfl, rfl⟩

theorem form_flag (b : Bool) : Form .flag (.flag b) (.flag b) := ⟨b, rfl, rfl⟩

theorem form_number {bound n : Nat} (h : n < bound) :
    Form (.number bound) (.number n) (.number n) := ⟨n, h, rfl, rfl⟩

variable {α : Type} {inner : Shape} {toValue : α → Value}

theorem form_optional (h : ∀ a, inner.Form (toValue a) (toValue a)) (a : Option α) :
    Form (.optional inner) ((a.map toValue).getD .null) ((a.map toValue).getD .null) := by
  cases a with
  | none => exact .inl ⟨rfl, rfl⟩
  | some a => exact .inr (h a)

theorem form_list (h : ∀ a, inner.Form (toValue a) (toValue a)) (items : List α) :
    Form (.list inner) (.list (items.map toValue)) (.list (items.map toValue)) :=
  ⟨_, _, rfl, rfl, List.forall₂_same.2 fun value hvalue => by
    obtain ⟨a, -, rfl⟩ := List.mem_map.1 hvalue
    exact h a⟩

end Json.Shape

open Json.Shape

theorem Endpoint.form_toValue (endpoint : Endpoint) :
    shape.Form endpoint.toValue endpoint.toValue :=
  form_object <| .cons _ (form_optional form_text _) <| .cons _ (form_optional form_text _) <|
    .cons _ (form_number endpoint.port.toNat_lt) .nil

theorem Annotation.form_toValue (a : Annotation) : shape.Form a.toValue a.toValue :=
  form_object <| .cons _ (form_number a.timestamp.toNat_lt) <| .cons _ (form_text _) .nil

theorem RecordedError.form_toValue (error : RecordedError) :
    shape.Form error.toValue error.toValue :=
  form_object <| .cons _ (form_text _) <| .cons _ (form_optional form_text _) .nil

theorem Kind.form_toValue (kind : Kind) : shape.Form kind.toValue kind.toValue :=
  ⟨kind.name, by cases kind <;> decide, rfl, rfl⟩

theorem Tags.form_entriesValue (entries : List (String × String)) :
    shape.Form (entriesValue entries) (entriesValue entries) :=
  ⟨_, _, rfl, rfl, List.forall₂_same.2 fun entry hentry => by
    obtain ⟨entry, -, rfl⟩ := List.mem_map.1 hentry
    exact ⟨rfl, form_text _⟩⟩

/-- A span as a value is a form of itself, whatever stands for its tags. -/
theorem Span.form_valueWith (span : Span) (entries : List (String × String)) :
    shape.Form (span.valueWith (Tags.entriesValue entries))
      (span.valueWith (Tags.entriesValue entries)) :=
  form_object <|
    .cons _ (form_text _) <| .cons _ (form_optional form_text _) <| .cons _ (form_text _) <|
    .cons _ (form_optional Kind.form_toValue _) <| .cons _ (form_optional form_text _) <|
    .cons _ (form_number span.start.toNat_lt) <| .cons _ (form_number span.finish.toNat_lt) <|
    .cons _ (Endpoint.form_toValue _) <| .cons _ (Endpoint.form_toValue _) <|
    .cons _ (form_list Annotation.form_toValue _) <| .cons _ (Tags.form_entriesValue _) <|
    .cons _ (form_flag _) <| .cons _ (form_flag _) <|
    .cons _ (form_optional RecordedError.form_toValue _) .nil

theorem Span.distinct_shape : Span.shape.Distinct := by
  simp [shape, Shape.Distinct, FieldsDistinct, Endpoint.shape, Annotation.shape,
    RecordedError.shape, Kind.shape, Tags.shape]

/-! ## Values that mean what was written -/

theorem optional?_map {α : Type} {read : Value → Option α} {toValue : α → Value}
    (hread : ∀ a, read (toValue a) = some a) (hne : ∀ a, toValue a ≠ .null) (a : Option α) :
    ((a.map toValue).getD .null).optional? read = some a := by
  cases a with
  | none => rfl
  | some a =>
    have hvalue := hread a
    rw [Option.map_some, Option.getD_some, Value.optional?.eq_def]
    split
    · next heq => exact absurd heq (hne a)
    · rw [hvalue, Option.map_some]

theorem items?_map {α : Type} {read : Value → Option α} {toValue : α → Value}
    (hread : ∀ a, read (toValue a) = some a) (items : List α) :
    (Value.list (items.map toValue)).items? read = some items := by
  induction items with
  | nil => rfl
  | cons a items ih =>
    rw [Value.items?] at ih ⊢
    simp [hread, ih]

/-- Tags in any order mean the tags. -/
theorem Tags.ofValue?_entriesValue {tags : Tags} {entries : List (String × String)}
    (hperm : entries.Perm tags.entries) : ofValue? (entriesValue entries) = some tags := by
  have hread : ∀ entries : List (String × String),
      (entriesValue entries).entries? Value.text? = some entries := by
    intro entries
    induction entries with
    | nil => rfl
    | cons entry entries ih =>
      rw [entriesValue, Value.entries?] at ih ⊢
      rw [List.map_cons, List.mapM_cons, ih]
      rfl
  have hkeys : (entries.map Prod.fst).Nodup := (hperm.map Prod.fst).nodup_iff.2 tags.nodup_keys
  rw [ofValue?, hread, Option.map_some, insertAll_perm hkeys hperm, insertAll_entries]

theorem Span.ofValue?_valueWith {span : Span} {tags : Value}
    (htags : Tags.ofValue? tags = some span.tags) :
    ofValue? (span.valueWith tags) = some span := by
  have htext : ∀ s : Option String, (Value.ofText? s).optional? Value.text? = some s :=
    optional?_map (fun _ => rfl) fun _ => Value.noConfusion
  have hkind : ((span.kind.map Kind.toValue).getD .null).optional? Kind.ofValue? =
      some span.kind :=
    optional?_map Kind.ofValue?_toValue (fun _ => Value.noConfusion) span.kind
  have herror : ((span.error.map RecordedError.toValue).getD .null).optional?
      RecordedError.ofValue? = some span.error :=
    optional?_map RecordedError.ofValue?_toValue (fun _ => Value.noConfusion) span.error
  simp only [ofValue?, valueWith, Value.get?, List.lookup_cons, String.reduceBEq,
    Option.bind_eq_bind, Option.bind_some, htext, hkind, herror, htags,
    Endpoint.ofValue?_toValue, items?_map Annotation.ofValue?_toValue]
  simp [Value.text?, Value.number?, Value.flag?]

/-! ## The texts of a span -/

/-- A text is written of a span: its tags stand in some order, and each record within it is an
object with its fields in some order or the list of its fields. -/
def Span.WrittenAs (span : Span) (text : String) : Prop :=
  ∃ tags form, tags.Perm span.tags.entries
    ∧ shape.Form form (span.valueWith (Tags.entriesValue tags))
    ∧ text = String.ofList form.render

theorem Span.writtenAs_write (span : Span) : span.WrittenAs (written.write span) :=
  ⟨span.tags.entries, span.toValue, .refl _, span.form_valueWith _, rfl⟩

theorem Written.parse_eq {α : Type} {form : Written α} {text : String} {value : Value} {a : α}
    (hparse : form.shape.parse text = .ok value) (hvalue : form.ofValue? value = some a) :
    form.parse text = .ok a := by
  rw [parse, hparse, Problem.ok_bind, hvalue]
  rfl

theorem Span.parse_of_writtenAs {span : Span} {text : String} (h : span.WrittenAs text) :
    written.parse text = .ok span := by
  obtain ⟨tags, form, hperm, hform, rfl⟩ := h
  exact Written.parse_eq (Shape.parse_render distinct_shape hform)
    (ofValue?_valueWith (Tags.ofValue?_entriesValue hperm))

/-- What is written of a span is read as that span, and so is every text that stands for it with
its tags in another order, the fields of its objects in another order, or lists of fields in the
place of objects. The span that is read makes the same bytes on the wire. -/
theorem Span.read_back (span : Span) :
    written.parse (written.write span) = .ok span
      ∧ span.WrittenAs (written.write span)
      ∧ ∀ text, span.WrittenAs text →
          written.parse text = .ok span
          ∧ ∀ tagger, (written.parse text).map (Encoder.proto3 tagger).encode =
              .ok ((Encoder.proto3 tagger).encode span) := by
  refine ⟨parse_of_writtenAs span.writtenAs_write, span.writtenAs_write, fun text htext => ?_⟩
  have hparse := parse_of_writtenAs htext
  refine ⟨hparse, fun tagger => ?_⟩
  rw [hparse]
  rfl

/-- A span with the largest numbers and with texts that have to be escaped. -/
def Span.escaped : Span where
  traceId := "00000000000000\x01\""
  id := "\\"
  name := some "é\n"
  start := 18446744073709551615
  localEndpoint := { serviceName := some "\x7f", port := 65535 }
  annotations := [⟨1, ""⟩]
  tags := Tags.empty.insertAll [("a", "1"), ("b", "\t")]

/-- The list of the fields of the span, one of its endpoints again a list, the other one and the
event objects from back to front, and the tags as well. -/
def Span.rearranged : Value :=
  .list [.text "00000000000000\x01\"", .null, .text "\\", .null, .text "é\n",
    .number 18446744073709551615, .number 0, .list [.text "\x7f", .null, .number 65535],
    .object [("port", .number 0), ("ip", .null), ("service_name", .null)],
    .list [.object [("value", .text ""), ("timestamp", .number 1)]],
    .object [("b", .text "\t"), ("a", .text "1")], .flag false, .flag false, .null]

/-- The span is read from its rearranged text. -/
theorem Span.escaped_read_back :
    escaped.WrittenAs (String.ofList rearranged.render)
      ∧ written.parse (String.ofList rearranged.render) = .ok escaped := by
  have hlocal : Endpoint.shape.Form (.list [.text "\x7f", .null, .number 65535])
      escaped.localEndpoint.toValue :=
    ⟨_, _, .cons _ (.inr (form_text _)) <| .cons _ (.inl ⟨rfl, rfl⟩) <|
      .cons _ (form_number (by decide)) .nil, rfl, .inr rfl⟩
  have hremote : Endpoint.shape.Form
      (.object [("port", .number 0), ("ip", .null), ("service_name", .null)])
      escaped.remoteEndpoint.toValue :=
    ⟨_, _, .cons _ (.inl ⟨rfl, rfl⟩) <| .cons _ (.inl ⟨rfl, rfl⟩) <|
      .cons _ (form_number (by decide)) .nil, rfl, .inl ⟨_, List.reverse_perm _, rfl⟩⟩
  have hevent : Annotation.shape.Form (.object [("value", .text ""), ("timestamp", .number 1)])
      (⟨1, ""⟩ : Annotation).toValue :=
    ⟨_, _, .cons _ (form_number (by decide)) <| .cons _ (form_text _) .nil, rfl,
      .inl ⟨_, List.reverse_perm _, rfl⟩⟩
  have hwritten : escaped.WrittenAs (String.ofList rearranged.render) := by
    refine ⟨[("b", "\t"), ("a", "1")], rearranged, by decide +kernel, ⟨_, _,
      .cons _ (form_text _) <| .cons _ (.inl ⟨rfl, rfl⟩) <| .cons _ (form_text _) <|
      .cons _ (.inl ⟨rfl, rfl⟩) <| .cons _ (.inr (form_text _)) <|
      .cons _ (form_number (by decide)) <| .cons _ (form_number (by decide)) <|
      .cons _ hlocal <| .cons _ hremote <| .cons _ ⟨_, _, rfl, rfl, .cons hevent .nil⟩ <|
      .cons _ (Tags.form_entriesValue _) <| .cons _ (form_flag _) <| .cons _ (form_flag _) <|
      .cons _ (.inl ⟨rfl, rfl⟩) .nil, rfl, .inr rfl⟩, rfl⟩
  exact ⟨hwritten, ((read_back escaped).2.2 _ hwritten).1⟩

end SpanCourier
