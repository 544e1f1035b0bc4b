import SpanCourier.Span.Basic
import SpanCourier.Text.Hex
import SpanCourier.Text.Quoted

set_option autoImplicit false

/-! # Span drafts

A draft gathers what is known of a span before its identifiers are checked. Finishing a draft
checks the trace id, the id and the parent id, in this order, and brings each to lower case and
full width: 16 digits, or 32 for a longer trace id. The first that is missing or malformed is
the error.
-/

namespace SpanCourier

/-- The identifiers of a span. -/
inductive IdField
  | traceId
  | id
  | parentId
deriving DecidableEq, Repr

namespace IdField

/-- The written name of an identifier. -/
def name : IdField → String
  | traceId => "trace_id"
  | id => "id"
  | parentId => "parent_id"

/-- The most digits that an identifier may have. -/
def maxLength : IdField → Nat
  | traceId => 32
  | id => 16
  | parentId => 16

end IdField

/-- Why a draft is not a span. -/
inductive DraftError
  | missing (field : IdField)
  | invalid (field : IdField) (value : String)
deriving DecidableEq, Repr

namespace DraftError

/-- The text of a draft error. -/
def message : DraftError → String
  | missing field => field.name ++ " is required"
  | invalid field value =>
    field.name ++ " must be 1-" ++ toString field.maxLength ++ " hex characters, got "
      ++ Quoted.text value

end DraftError

/-- Lower case for the letters `A` to `Z`. -/
def lowerCase (s : List Char) : List Char := s.map Char.toLower

/-- The full width of an identifier with this many digits. -/
def idWidth (digits : Nat) : Nat := if digits ≤ 16 then 16 else 32

/-- Digits in lower case, filled with zeros on the left to full width. -/
def widenId (digits : List Char) : List Char :=
  List.replicate (idWidth digits.length - digits.length) '0' ++ lowerCase digits

/-- A text is a row of hexadecimal digits, at least one and at most so many. -/
def isIdText (maxLength : Nat) (s : List Char) : Bool :=
  !s.isEmpty && s.length ≤ maxLength && s.all isHex

/-- Checks an identifier and brings it to its full form. -/
def IdField.normalize (field : IdField) (value : String) : Except DraftError String :=
  if isIdText field.maxLength value.toList then .ok (String.ofList (widenId value.toList))
  else .error (.invalid field value)

/-- Checks an identifier that a span cannot do without. -/
def IdField.require (field : IdField) : Option String → Except DraftError String
  | none => .error (.missing field)
  | some value => field.normalize value

/-- A span whose identifiers are still unchecked. -/
structure Draft where
  traceId : Option String := none
  parentId : Option String := none
  id : Option String := none
  kind : Option Kind := none
  name : Option String := none
  start : UInt64 := 0
  finish : UInt64 := 0
  localEndpoint : Endpoint := {}
  remoteEndpoint : Endpoint := {}
  annotations : List Annotation := []
  tags : Tags := {}
  debug : Bool := false
  shared : Bool := false
  error : Option RecordedError := none
deriving Inhabited

/-- Sets a tag, over an earlier value of the same key. -/
def Draft.tag (draft : Draft) (key value : String) : Draft :=
  { draft with tags := draft.tags.insert key value }

/-- The span of a draft, with its identifiers checked. -/
def Draft.build (draft : Draft) : Except DraftError Span := do
  let traceId ← IdField.traceId.require draft.traceId
  let id ← IdField.id.require draft.id
  let parentId ← match draft.parentId with
    | none => pure none
    | some value => some <$> IdField.parentId.normalize value
  return {
    traceId, parentId, id
    kind := draft.kind
    name := draft.name
    start := draft.start
    finish := draft.finish
    localEndpoint := draft.localEndpoint
    remoteEndpoint := draft.remoteEndpoint
    annotations := draft.annotations
    tags := draft.tags
    debug := draft.debug
    shared := draft.shared
    error := draft.error }

theorem length_widenId {digits : List Char} (h : digits.length ≤ 32) :
    (widenId digits).length = idWidth digits.length := by
  simp only [widenId, lowerCase, List.length_append, List.length_replicate, List.length_map,
    idWidth]
  split <;> omega

example : (IdField.normalize .traceId "ABC").toOption = some "0000000000000abc" := by
  decide +kernel
example : (IdField.normalize .id "00000000000000001").toOption = none := by decide +kernel

end SpanCourier
