import SpanCourier.Encoder
import SpanCourier.Span.Draft
import SpanCourier.Proofs.Text.Hex
import SpanCourier.Proofs.Text.Utf8

set_option autoImplicit false

/-! # Identifiers from a draft to the wire

An identifier is one to so many hexadecimal digits (`IsId`), counted in characters or in bytes
(`isId_iff_bytes`). A draft becomes a span exactly if each of its three fields accepts what it is
given, and else the first field that does not is the error (`Draft.build_eq_error_iff`). What a span
gets for a value (`Draft.Gives`) has a width that the number of digits decides, and denotes the same
number; on the wire it is the bytes of that number in half that width (`Draft.Gives.idBytes_eq`).
-/

namespace SpanCourier

/-! ## Texts of digits -/

/-- One to so many hexadecimal digits, in either letter case. -/
def IsId (maxLength : Nat) (value : String) : Prop :=
  1 ≤ value.toList.length ∧ value.toList.length ≤ maxLength
    ∧ ∀ c ∈ value.toList, c.toLower ∈ hexDigits

theorem isIdText_iff {maxLength : Nat} {value : String} :
    isIdText maxLength value.toList = true ↔ IsId maxLength value :=
  hexRow_iff

instance (maxLength : Nat) (value : String) : Decidable (IsId maxLength value) :=
  decidable_of_iff _ isIdText_iff

/-- A text that is not all ASCII is no identifier, nor are its bytes digits, so the digits may as
well be counted in bytes. -/
theorem isId_iff_bytes {maxLength : Nat} {value : String} :
    IsId maxLength value ↔
      1 ≤ (utf8 value).length ∧ (utf8 value).length ≤ maxLength
        ∧ ∀ b ∈ utf8 value, isHex (Char.ofNat b.toNat) = true := by
  have hbytes : (∀ b ∈ utf8 value, isHex (Char.ofNat b.toNat) = true) ↔
      ∀ c ∈ byteChars (utf8Chars value.toList), c.toLower ∈ hexDigits := by
    rw [utf8_eq, byteChars]
    simp only [List.mem_map, forall_exists_index, and_imp, forall_apply_eq_imp_iff₂, isHex_iff]
  rw [hbytes]
  by_cases hascii : ∀ c ∈ value.toList, c.toNat < 128
  · have hchars := byteChars_utf8Chars hascii
    have hlength := congrArg List.length hchars
    rw [length_byteChars, ← utf8_eq] at hlength
    rw [hchars, hlength, IsId]
  · obtain ⟨c, hc⟩ := not_forall.1 hascii
    obtain ⟨hmem, hle⟩ := Classical.not_imp.1 hc
    obtain ⟨d, hd, hdle⟩ := exists_mem_byteChars hmem (Nat.le_of_not_lt hle)
    have hnot : ∀ {e : Char}, 128 ≤ e.toNat → e.toLower ∉ hexDigits := fun he hdigit =>
      absurd (toNat_lt_of_mem_hexDigits hdigit) (Nat.not_lt_of_le he)
    exact iff_of_false (fun h => hnot (Nat.le_of_not_lt hle) (h.2.2 c hmem))
      fun h => hnot hdle (h.2.2 d hd)

/-! ## Full identifiers -/

/-- An identifier in lower case and full width. -/
def fullId (value : String) : String := String.ofList (widenId value.toList)

theorem toList_fullId (value : String) :
    (fullId value).toList =
      List.replicate (idWidth value.toList.length - value.toList.length) '0'
        ++ value.toList.map Char.toLower := by
  rw [fullId, String.toList_ofList, widenId, lowerCase]

theorem length_fullId {value : String} (h : value.toList.length ≤ 32) :
    (fullId value).toList.length = idWidth value.toList.length := by
  rw [fullId, String.toList_ofList, length_widenId h]

theorem mem_fullId {value : String} (h : ∀ c ∈ value.toList, c.toLower ∈ hexDigits) :
    ∀ c ∈ (fullId value).toList, c ∈ hexDigits := by
  intro c hc
  rw [toList_fullId] at hc
  rcases List.mem_append.1 hc with hc | hc
  · rw [List.eq_of_mem_replicate hc]
    decide
  · obtain ⟨d, hd, rfl⟩ := List.mem_map.1 hc
    exact h d hd

/-- The full identifier denotes the same number. -/
theorem hexNumber_fullId {value : String} (h : ∀ c ∈ value.toList, c.toLower ∈ hexDigits) :
    hexNumber (fullId value).toList = hexNumber value.toList := by
  rw [toList_fullId, hexNumber_zeros_append, hexNumber_map_toLower h]

/-- A full identifier is an identifier of the same field. -/
theorem isId_fullId {maxLength : Nat} (hmax : maxLength = 16 ∨ maxLength = 32) {value : String}
    (h : IsId maxLength value) : IsId maxLength (fullId value) := by
  obtain ⟨hpos, hlength, hdigits⟩ := h
  have hwidth : 1 ≤ (fullId value).toList.length ∧ (fullId value).toList.length ≤ maxLength := by
    rw [length_fullId (by omega), idWidth]
    split <;> omega
  refine ⟨hwidth.1, hwidth.2, fun c hc => ?_⟩
  have hmem := mem_fullId hdigits c hc
  rwa [toLower_of_mem_hexDigits hmem]

/-- A full identifier stays as it is. -/
theorem fullId_fullId {value : String} (hlength : value.toList.length ≤ 32)
    (h : ∀ c ∈ value.toList, c.toLower ∈ hexDigits) : fullId (fullId value) = fullId value := by
  have hwidth : idWidth (idWidth value.toList.length) = idWidth value.toList.length := by
    unfold idWidth
    split <;> simp
  have hlower : (fullId value).toList.map Char.toLower = (fullId value).toList :=
    calc (fullId value).toList.map Char.toLower
        = (fullId value).toList.map id :=
          List.map_congr_left fun c hc => toLower_of_mem_hexDigits (mem_fullId h c hc)
      _ = (fullId value).toList := List.map_id _
  apply String.toList_inj.1
  rw [toList_fullId, length_fullId hlength, hwidth, Nat.sub_self, List.replicate_zero,
    List.nil_append, hlower]

/-- The bytes of a full identifier on the wire: half as many as it has digits, of the same
number. -/
theorem idBytes_of_digits {value : String} (hlength : value.toList.length ≤ 32)
    (heven : value.toList.length % 2 = 0) (h : ∀ c ∈ value.toList, c.toLower ∈ hexDigits) :
    2 * (idBytes value).length = value.toList.length
      ∧ byteNumber (idBytes value) = hexNumber value.toList := by
  obtain ⟨bytes, hbytes⟩ := Option.isSome_iff_exists.1
    (bytesOfHex?_isSome_iff.2 ⟨heven, fun c hc => isHex_iff.2 (h c hc)⟩)
  rw [idBytes, if_pos hlength, hbytes, Option.getD_some]
  exact ⟨(length_of_bytesOfHex? hbytes).symm, byteNumber_of_bytesOfHex? hbytes⟩

/-! ## One field of a draft -/

namespace IdField

/-- The fields in the order of their checks. -/
def order : List IdField := [traceId, id, parentId]

/-- What a field of a draft may be given: an identifier, and the parent may be absent. -/
def Accepts (field : IdField) : Option String → Prop
  | none => field = parentId
  | some value => IsId field.maxLength value

instance (field : IdField) : (value : Option String) → Decidable (field.Accepts value)
  | none => inferInstanceAs (Decidable (field = parentId))
  | some value => inferInstanceAs (Decidable (IsId field.maxLength value))

/-- What is wrong with a value that a field does not accept. -/
def complaint (field : IdField) : Option String → DraftError
  | none => .missing field
  | some value => .invalid field value

/-- The message names the field. -/
theorem message_complaint (field : IdField) (value : Option String) :
    ∃ rest, (field.complaint value).message = field.name ++ rest := by
  cases value with
  | none => exact ⟨_, rfl⟩
  | some value =>
    refine ⟨" must be 1-" ++ toString field.maxLength ++ " hex characters, got "
      ++ Quoted.text value, ?_⟩
    simp only [complaint, DraftError.message, String.append_assoc]

theorem normalize_of_isId {field : IdField} {value : String} (h : IsId field.maxLength value) :
    field.normalize value = .ok (fullId value) :=
  if_pos (isIdText_iff.2 h)

theorem normalize_of_not_isId {field : IdField} {value : String}
    (h : ¬ IsId field.maxLength value) :
    field.normalize value = .error (field.complaint (some value)) :=
  if_neg (mt isIdText_iff.1 h)

/-- A field that is not the parent's gets the full identifier if it accepts what it is given. -/
theorem require_eq {field : IdField} (hfield : field ≠ parentId) (value : Option String) :
    field.require value =
      if field.Accepts value then .ok (fullId (value.getD ""))
      else .error (field.complaint value) := by
  cases value with
  | none => exact (if_neg hfield).symm
  | some value =>
    by_cases h : IsId field.maxLength value
    · exact (normalize_of_isId h).trans (if_pos h).symm
    · exact (normalize_of_not_isId h).trans (if_neg h).symm

end IdField

/-- An identifier of a span. -/
def Span.idOf (span : Span) : IdField → Option String
  | .traceId => some span.traceId
  | .id => some span.id
  | .parentId => span.parentId

/-! ## Drafts -/

namespace Draft

/-- What a draft gives for a field. -/
def given (draft : Draft) : IdField → Option String
  | .traceId => draft.traceId
  | .id => draft.id
  | .parentId => draft.parentId

/-- The span of a draft with full identifiers. -/
def filled (draft : Draft) : Span where
  traceId := fullId (draft.traceId.getD "")
  parentId := draft.parentId.map fullId
  id := fullId (draft.id.getD "")
  kind := draft.kind
  name := draft.name
  start := draft.start
  finish := draft.finish
  localEndpoint := draft.localEndpoint
  remoteEndpoint := draft.remoteEndpoint
  annotations := draft.annotations
  tags := draft.tags
  debug := draft.debug
  shared := draft.shared
  error := draft.error

/-- The first field that does not accept what the draft gives. -/
def offender? (draft : Draft) : Option IdField :=
  IdField.order.find? fun field => ¬ field.Accepts (draft.given field)

/-- The first field that does not accept what it is given decides, in the order of the checks. -/
theorem offender?_eq (draft : Draft) :
    draft.offender? =
      if ¬ IdField.traceId.Accepts draft.traceId then some .traceId
      else if ¬ IdField.id.Accepts draft.id then some .id
      else if ¬ IdField.parentId.Accepts draft.parentId then some .parentId
      else none := by
  by_cases ht : IdField.traceId.Accepts draft.traceId <;>
    by_cases hi : IdField.id.Accepts draft.id <;>
      by_cases hp : IdField.parentId.Accepts draft.parentId <;>
        simp [offender?, IdField.order, given, ht, hi, hp]

/-- A draft is built if every field accepts what it is given, and else the first that does not is
the error. -/
theorem build_eq (draft : Draft) :
    draft.build =
      draft.offender?.elim (.ok draft.filled) fun field =>
        .error (field.complaint (draft.given field)) := by
  rw [build, offender?_eq, IdField.require_eq (by decide), IdField.require_eq (by decide)]
  -- the cases follow the checks: behind the first that fails nothing is looked at
  by_cases ht : IdField.traceId.Accepts draft.traceId
  · rw [if_pos ht, if_neg (not_not.2 ht)]
    by_cases hi : IdField.id.Accepts draft.id
    · rw [if_pos hi, if_neg (not_not.2 hi)]
      cases hparent : draft.parentId with
      | none =>
        have hp : IdField.parentId.Accepts none := rfl
        rw [if_neg (not_not.2 hp), filled, hparent]
        rfl
      | some value =>
        by_cases hp : IdField.parentId.Accepts (some value)
        · rw [if_neg (not_not.2 hp), filled, hparent]
          simp only [IdField.normalize_of_isId hp]
          rfl
        · rw [if_pos hp]
          simp only [IdField.normalize_of_not_isId hp, given, hparent]
          rfl
    · rw [if_neg hi, if_pos hi]
      rfl
  · rw [if_neg ht, if_pos ht]
    rfl

theorem build_eq_ok_iff {draft : Draft} {span : Span} :
    draft.build = .ok span ↔ draft.offender? = none ∧ span = draft.filled := by
  rw [build_eq]
  cases draft.offender? with
  | none => simp [eq_comm]
  | some field => simp

theorem build_eq_error_iff {draft : Draft} {error : DraftError} :
    draft.build = .error error ↔
      ∃ field, draft.offender? = some field ∧ error = field.complaint (draft.given field) := by
  rw [build_eq]
  cases draft.offender? with
  | none => simp
  | some field => simp [eq_comm]

/-- No field offends if there are a trace id and an id, and each value is an identifier. -/
theorem offender?_eq_none_iff {draft : Draft} :
    draft.offender? = none ↔
      (∃ value, draft.traceId = some value ∧ IsId 32 value)
        ∧ (∃ value, draft.id = some value ∧ IsId 16 value)
        ∧ ∀ value, draft.parentId = some value → IsId 16 value := by
  have hrequired : ∀ {field : IdField}, field ≠ .parentId → ∀ {value : Option String},
      field.Accepts value ↔ ∃ v, value = some v ∧ IsId field.maxLength v := by
    intro field hfield value
    cases value with
    | none => simpa [IdField.Accepts] using hfield
    | some v => simp [IdField.Accepts]
  have hparent : IdField.parentId.Accepts draft.parentId ↔
      ∀ value, draft.parentId = some value → IsId 16 value := by
    cases draft.parentId with
    | none => simp [IdField.Accepts]
    | some v => simp [IdField.Accepts, IdField.maxLength]
  have hall : draft.offender? = none ↔
      IdField.traceId.Accepts draft.traceId ∧ IdField.id.Accepts draft.id
        ∧ IdField.parentId.Accepts draft.parentId := by
    rw [offender?_eq]
    by_cases ht : IdField.traceId.Accepts draft.traceId <;>
      by_cases hi : IdField.id.Accepts draft.id <;>
        simp [ht, hi]
  rw [hall, hrequired (by decide), hrequired (by decide), hparent]
  rfl

/-- Building the draft makes this identifier of the value that it gives for a field. -/
def Gives (draft : Draft) (field : IdField) (value id : String) : Prop :=
  ∃ span, draft.build = .ok span ∧ draft.given field = some value ∧ span.idOf field = some id

theorem Gives.eq {draft : Draft} {field : IdField} {value id : String}
    (h : draft.Gives field value id) : IsId field.maxLength value ∧ id = fullId value := by
  obtain ⟨span, hbuild, hgiven, hid⟩ := h
  obtain ⟨hnone, rfl⟩ := build_eq_ok_iff.1 hbuild
  obtain ⟨⟨trace, htrace, htraceId⟩, ⟨own, hown, hownId⟩, hparent⟩ := offender?_eq_none_iff.1 hnone
  cases field with
  | traceId =>
    obtain rfl : trace = value := Option.some.inj (htrace.symm.trans hgiven)
    refine ⟨htraceId, ?_⟩
    simpa [Span.idOf, filled, htrace] using hid.symm
  | id =>
    obtain rfl : own = value := Option.some.inj (hown.symm.trans hgiven)
    refine ⟨hownId, ?_⟩
    simpa [Span.idOf, filled, hown] using hid.symm
  | parentId =>
    have hgiven : draft.parentId = some value := hgiven
    refine ⟨hparent value hgiven, ?_⟩
    simpa [Span.idOf, filled, hgiven] using hid.symm

/-- The full width is sixteen digits, or thirty-two for a long trace id. -/
theorem Gives.length_eq {draft : Draft} {field : IdField} {value id : String}
    (h : draft.Gives field value id) :
    id.toList.length = if field = .traceId ∧ 16 < value.toList.length then 32 else 16 := by
  obtain ⟨⟨-, hlength, -⟩, rfl⟩ := h.eq
  have hmax : value.toList.length ≤ 16 ∨ field = .traceId ∧ value.toList.length ≤ 32 := by
    cases field with
    | traceId => exact .inr ⟨rfl, hlength⟩
    | id => exact .inl hlength
    | parentId => exact .inl hlength
  rw [length_fullId (by omega), idWidth]
  by_cases hshort : value.toList.length ≤ 16
  · rw [if_pos hshort, if_neg fun h => Nat.not_lt_of_le hshort h.2]
  · have hlong : field = .traceId ∧ 16 < value.toList.length := by
      rcases hmax with hle | ⟨hfield, -⟩
      · exact absurd hle hshort
      · exact ⟨hfield, Nat.lt_of_not_le hshort⟩
    rw [if_neg hshort, if_pos hlong]

/-- On the wire there are half as many bytes as digits, and they denote the number of the value. -/
theorem Gives.idBytes_eq {draft : Draft} {field : IdField} {value id : String}
    (h : draft.Gives field value id) :
    2 * (idBytes id).length = id.toList.length
      ∧ byteNumber (idBytes id) = hexNumber value.toList := by
  have hlength := h.length_eq
  obtain ⟨⟨-, -, hdigits⟩, rfl⟩ := h.eq
  have hlower : ∀ c ∈ (fullId value).toList, c.toLower ∈ hexDigits := by
    intro c hc
    have hmem := mem_fullId hdigits c hc
    rwa [toLower_of_mem_hexDigits hmem]
  rw [← hexNumber_fullId hdigits]
  refine idBytes_of_digits ?_ ?_ hlower
  · rw [hlength]
    split <;> omega
  · rw [hlength]
    split <;> omega

/-- Two identifiers are the same on the wire if they denote the same number in the same width, and
only then. -/
theorem Gives.idBytes_eq_iff {draft other : Draft} {field field' : IdField}
    {value value' id id' : String} (h : draft.Gives field value id)
    (h' : other.Gives field' value' id') :
    idBytes id = idBytes id' ↔
      hexNumber value.toList = hexNumber value'.toList ∧ id.toList.length = id'.toList.length := by
  obtain ⟨hlength, hnumber⟩ := h.idBytes_eq
  obtain ⟨hlength', hnumber'⟩ := h'.idBytes_eq
  rw [← hnumber, ← hnumber', ← hlength, ← hlength']
  constructor
  · intro hbytes
    rw [hbytes]
    exact ⟨rfl, rfl⟩
  · rintro ⟨hsame, hwidth⟩
    exact eq_of_byteNumber_eq (by omega) hsame

/-- The draft that gives what a span already has. -/
def withIdsOf (draft : Draft) (span : Span) : Draft :=
  { draft with traceId := some span.traceId, parentId := span.parentId, id := some span.id }

/-- Identifiers that are built once more stay as they are. -/
theorem build_withIdsOf {draft : Draft} {span : Span} (h : draft.build = .ok span) :
    (draft.withIdsOf span).build = .ok span := by
  obtain ⟨hnone, rfl⟩ := build_eq_ok_iff.1 h
  obtain ⟨⟨trace, htrace, htraceId⟩, ⟨own, hown, hownId⟩, hparent⟩ := offender?_eq_none_iff.1 hnone
  have again : ∀ {maxLength : Nat} {value : String}, maxLength ≤ 32 → IsId maxLength value →
      fullId (fullId value) = fullId value :=
    fun hmax hid => fullId_fullId (Nat.le_trans hid.2.1 hmax) hid.2.2
  refine build_eq_ok_iff.2 ⟨offender?_eq_none_iff.2 ⟨⟨_, rfl, ?_⟩, ⟨_, rfl, ?_⟩, ?_⟩, ?_⟩
  · rw [filled, htrace]
    exact isId_fullId (by decide) htraceId
  · rw [filled, hown]
    exact isId_fullId (by decide) hownId
  · intro value hvalue
    obtain ⟨parent, hgiven, rfl⟩ := Option.map_eq_some_iff.1 hvalue
    exact isId_fullId (by decide) (hparent parent hgiven)
  · simp only [filled, withIdsOf, htrace, hown, Option.getD_some, again (by decide) htraceId,
      again (by decide) hownId]
    cases hgiven : draft.parentId with
    | none => rfl
    | some parent =>
      rw [Option.map_some, Option.map_some, again (by decide) (hparent parent hgiven)]

end Draft

/-! ## Identifiers of a span on the wire -/

namespace Span

/-- The span without its identifiers. -/
def withoutIds (span : Span) : Span := { span with traceId := "", parentId := none, id := "" }

/-- The fields of the identifiers come first, and nothing else of what is written depends on
them. -/
theorem content_eq (span : Span) (tagger : ErrorTagger) :
    span.content tagger (span.measure tagger) =
      Field.delimited 1 (idBytes span.traceId)
        ++ (span.parentId.map fun id => Field.delimited 2 (idBytes id)).getD []
        ++ Field.delimited 3 (idBytes span.id)
        ++ span.withoutIds.content tagger (span.withoutIds.measure tagger) := by
  have hempty : ∀ number, Field.delimited number (idBytes "") = [] := fun _ => rfl
  simp only [content, withoutIds, hempty, List.append_assoc, List.nil_append, Option.map_none,
    Option.getD_none]
  rfl

theorem delimited_of_even {bytes : List UInt8} {digits : Nat} (number : Nat)
    (h : 2 * bytes.length = digits) (hpos : 16 ≤ digits) :
    Field.delimited number bytes = Field.head number bytes.length ++ bytes := by
  refine if_neg ?_
  rintro rfl
  rw [List.length_nil] at h
  omega

/-- Each identifier of a span that was built is a field with its bytes, and the rest is what is
written of the span without them. -/
theorem encode_of_build {draft : Draft} {span : Span} (h : draft.build = .ok span)
    (tagger : ErrorTagger) :
    (Encoder.proto3 tagger).encode span =
      Field.head 1 (span.measure tagger).length
        ++ (Field.head 1 (idBytes span.traceId).length ++ idBytes span.traceId
          ++ (span.parentId.map fun id => Field.head 2 (idBytes id).length ++ idBytes id).getD []
          ++ (Field.head 3 (idBytes span.id).length ++ idBytes span.id)
          ++ span.withoutIds.content tagger (span.withoutIds.measure tagger)) := by
  -- no identifier is empty, so none of the three fields is left out
  have written : ∀ {field : IdField} {value id : String} (number : Nat),
      draft.Gives field value id →
        Field.delimited number (idBytes id) = Field.head number (idBytes id).length ++ idBytes id :=
    fun number hgives => delimited_of_even number hgives.idBytes_eq.1 (by
      rw [hgives.length_eq]
      split <;> decide)
  obtain ⟨⟨trace, htrace, -⟩, ⟨own, hown, -⟩, -⟩ :=
    Draft.offender?_eq_none_iff.1 (Draft.build_eq_ok_iff.1 h).1
  have htraceId : draft.Gives .traceId trace span.traceId := ⟨span, h, htrace, rfl⟩
  have hownId : draft.Gives .id own span.id := ⟨span, h, hown, rfl⟩
  have hparent : (span.parentId.map fun id => Field.delimited 2 (idBytes id)) =
      span.parentId.map fun id => Field.head 2 (idBytes id).length ++ idBytes id := by
    cases hid : span.parentId with
    | none => rfl
    | some id =>
      have hgiven : ∃ value, draft.parentId = some value := by
        rw [(Draft.build_eq_ok_iff.1 h).2] at hid
        obtain ⟨value, hvalue, -⟩ := Option.map_eq_some_iff.1 hid
        exact ⟨value, hvalue⟩
      obtain ⟨value, hvalue⟩ := hgiven
      have hgives : draft.Gives .parentId value id := ⟨span, h, hvalue, hid⟩
      rw [Option.map_some, Option.map_some, written 2 hgives]
  show Field.head 1 (span.measure tagger).length ++ span.content tagger (span.measure tagger) = _
  rw [content_eq, written 1 htraceId, written 3 hownId, hparent]

end Span

/-- A draft is built exactly if it gives a trace id of one to 32 digits, an id of one to 16 and, if
any, a parent id of one to 16, and else the error names the first field that is not so. Digits may
be counted in characters or in bytes. What is made of an identifier is in lower case, of full width
and of the same number, stays as it is if it is built once more, and is written as the bytes of that
number, so that two identifiers are told apart on the wire by their numbers and widths alone. -/
theorem Draft.identifiers_kept_to_wire (draft : Draft) :
    ((∃ span, draft.build = .ok span) ↔
        (∃ value, draft.traceId = some value ∧ IsId 32 value)
          ∧ (∃ value, draft.id = some value ∧ IsId 16 value)
          ∧ ∀ value, draft.parentId = some value → IsId 16 value)
      ∧ (∀ maxLength value, IsId maxLength value ↔
        1 ≤ (utf8 value).length ∧ (utf8 value).length ≤ maxLength
          ∧ ∀ b ∈ utf8 value, isHex (Char.ofNat b.toNat) = true)
      ∧ (∀ error, draft.build = .error error ↔
        ∃ field, [IdField.traceId, .id, .parentId].find?
            (fun field => ¬ field.Accepts (draft.given field)) = some field
          ∧ error = field.complaint (draft.given field)
          ∧ ∃ rest, error.message = field.name ++ rest)
      ∧ (∀ span, draft.build = .ok span →
        (span.parentId = none ↔ draft.parentId = none)
          ∧ (draft.withIdsOf span).build = .ok span
          ∧ ∀ tagger, (Encoder.proto3 tagger).encode span =
            Field.head 1 (span.measure tagger).length
              ++ (Field.head 1 (idBytes span.traceId).length ++ idBytes span.traceId
                ++ (span.parentId.map fun id =>
                  Field.head 2 (idBytes id).length ++ idBytes id).getD []
                ++ (Field.head 3 (idBytes span.id).length ++ idBytes span.id)
                ++ span.withoutIds.content tagger (span.withoutIds.measure tagger)))
      ∧ (∀ field value id, draft.Gives field value id →
        id.toList.length = (if field = .traceId ∧ 16 < value.toList.length then 32 else 16)
          ∧ (∀ c ∈ id.toList, c ∈ hexDigits)
          ∧ hexNumber id.toList = hexNumber value.toList
          ∧ 2 * (idBytes id).length = id.toList.length
          ∧ byteNumber (idBytes id) = hexNumber value.toList)
      ∧ ∀ (other : Draft) (field field' : IdField) (value value' id id' : String),
        draft.Gives field value id → other.Gives field' value' id' →
          (idBytes id = idBytes id' ↔ hexNumber value.toList = hexNumber value'.toList
            ∧ id.toList.length = id'.toList.length) := by
  refine ⟨?_, fun _ _ => isId_iff_bytes, fun error => ?_, fun span hbuild => ⟨?_, ?_, ?_⟩, ?_, ?_⟩
  · rw [← offender?_eq_none_iff]
    constructor
    · rintro ⟨span, hbuild⟩
      exact (build_eq_ok_iff.1 hbuild).1
    · exact fun hnone => ⟨_, build_eq_ok_iff.2 ⟨hnone, rfl⟩⟩
  · rw [build_eq_error_iff]
    constructor
    · rintro ⟨field, hfirst, rfl⟩
      exact ⟨field, hfirst, rfl, field.message_complaint _⟩
    · rintro ⟨field, hfirst, he, -⟩
      exact ⟨field, hfirst, he⟩
  · rw [(build_eq_ok_iff.1 hbuild).2]
    exact Option.map_eq_none_iff
  · exact build_withIdsOf hbuild
  · exact Span.encode_of_build hbuild
  · intro field value id hgives
    obtain ⟨⟨-, -, hdigits⟩, hid⟩ := hgives.eq
    refine ⟨hgives.length_eq, ?_, ?_, hgives.idBytes_eq⟩
    · rw [hid]
      exact mem_fullId hdigits
    · rw [hid]
      exact hexNumber_fullId hdigits
  · intro other field field' value value' id id' hgives hgives'
    exact hgives.idBytes_eq_iff hgives'

/-- A draft with digits in both letter cases, of several lengths. -/
def Draft.mixed : Draft where
  traceId := some "1234567890ABCDEF1"
  parentId := some "0F"
  id := some "a"
  tags := .empty

/-- The long trace id of the draft is kept to the wire, where it differs from its parent id. -/
theorem Draft.mixed_kept_to_wire :
    (∃ span, mixed.build = .ok span)
      ∧ mixed.Gives .traceId "1234567890ABCDEF1" "0000000000000001234567890abcdef1"
      ∧ mixed.Gives .parentId "0F" "000000000000000f"
      ∧ byteNumber (idBytes "0000000000000001234567890abcdef1") = 0x1234567890ABCDEF1
      ∧ idBytes "0000000000000001234567890abcdef1" ≠ idBytes "000000000000000f" := by
  obtain ⟨hbuild, -, -, -, hkept, htold⟩ := identifiers_kept_to_wire mixed
  have hspan : mixed.build = .ok mixed.filled := by
    rw [build_eq, show mixed.offender? = none by decide +kernel]
    rfl
  have htrace : mixed.Gives .traceId "1234567890ABCDEF1" "0000000000000001234567890abcdef1" :=
    ⟨_, hspan, rfl, by decide +kernel⟩
  have hparent : mixed.Gives .parentId "0F" "000000000000000f" :=
    ⟨_, hspan, rfl, by decide +kernel⟩
  refine ⟨hbuild.2 ⟨⟨_, rfl, by decide +kernel⟩, ⟨_, rfl, by decide +kernel⟩,
    fun value hvalue => ?_⟩, htrace, hparent, ?_, fun hsame => ?_⟩
  · obtain rfl : "0F" = value := Option.some.inj hvalue
    decide +kernel
  · rw [(hkept _ _ _ htrace).2.2.2.2]
    decide +kernel
  · exact absurd ((htold _ _ _ _ _ _ _ htrace hparent).1 hsame).2 (by decide +kernel)

end SpanCourier
