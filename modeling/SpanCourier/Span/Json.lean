import SpanCourier.Encoding
import SpanCourier.Json.Shape
import SpanCourier.Span.Basic

set_option autoImplicit false

/-! # Spans as JSON

For each type of the span model: the value it is written as, the shape it is read with, and what
a value of that shape means. Fields stand in the order of the types' definitions. Reading checks
no identifiers.
-/

namespace SpanCourier

open Json

/-- One more than the largest 64-bit number. -/
def wordBound : Nat := UInt64.size

/-- One more than the largest port. -/
def portBound : Nat := UInt16.size

namespace Kind

/-- The names that a kind may have. -/
def shape : Shape := .choice (all.map name)

/-- A kind as a value: its name. -/
def toValue (kind : Kind) : Value := .text kind.name

/-- The kind that a value names. -/
def ofValue? (value : Value) : Option Kind := value.text?.bind ofName?

end Kind

namespace Encoding

/-- The names that an encoding may have. -/
def shape : Shape := .choice (all.map name)

/-- An encoding as a value: its name. -/
def toValue (encoding : Encoding) : Value := .text encoding.name

/-- The encoding that a value names. -/
def ofValue? (value : Value) : Option Encoding := value.text?.bind ofName?

end Encoding

namespace Endpoint

/-- The fields of an endpoint. -/
def shape : Shape :=
  .record false [("service_name", .optional .text), ("ip", .optional .text),
    ("port", .number portBound)]

/-- An endpoint as a value. -/
def toValue (endpoint : Endpoint) : Value :=
  .object [("service_name", .ofText? endpoint.serviceName), ("ip", .ofText? endpoint.ip),
    ("port", .number endpoint.port.toNat)]

/-- The endpoint that a value describes. -/
def ofValue? (value : Value) : Option Endpoint := do
  let serviceName ← (← value.get? "service_name").optional? Value.text?
  let ip ← (← value.get? "ip").optional? Value.text?
  let port ← (← value.get? "port").number?
  return { serviceName, ip, port := UInt16.ofNat port }

end Endpoint

namespace Annotation

/-- The fields of an event. -/
def shape : Shape := .record false [("timestamp", .number wordBound), ("value", .text)]

/-- An event as a value. -/
def toValue (a : Annotation) : Value :=
  .object [("timestamp", .number a.timestamp.toNat), ("value", .text a.value)]

/-- The event that a value describes. -/
def ofValue? (value : Value) : Option Annotation := do
  let timestamp ← (← value.get? "timestamp").number?
  let text ← (← value.get? "value").text?
  return ⟨UInt64.ofNat timestamp, text⟩

end Annotation

namespace RecordedError

/-- The fields of a failure. -/
def shape : Shape := .record false [("kind", .text), ("message", .optional .text)]

/-- A failure as a value. -/
def toValue (error : RecordedError) : Value :=
  .object [("kind", .text error.kind), ("message", .ofText? error.message)]

/-- The failure that a value describes. -/
def ofValue? (value : Value) : Option RecordedError := do
  let kind ← (← value.get? "kind").text?
  let message ← (← value.get? "message").optional? Value.text?
  return { kind, message }

end RecordedError

namespace Tags

/-- A text under each key. -/
def shape : Shape := .map .text

/-- Texts under keys as a value, in the order in which they stand. -/
def entriesValue (entries : List (String × String)) : Value :=
  .object (entries.map fun (key, value) => (key, .text value))

/-- Tags as a value, in their order. -/
def toValue (tags : Tags) : Value := entriesValue tags.entries

/-- Of entries with the same key the last counts. -/
def ofValue? (value : Value) : Option Tags := (value.entries? Value.text?).map empty.insertAll

end Tags

namespace Span

/-- The fields of a span. -/
def shape : Shape :=
  .record false [
    ("trace_id", .text),
    ("parent_id", .optional .text),
    ("id", .text),
    ("kind", .optional Kind.shape),
    ("name", .optional .text),
    ("start_timestamp", .number wordBound),
    ("finish_timestamp", .number wordBound),
    ("local_endpoint", Endpoint.shape),
    ("remote_endpoint", Endpoint.shape),
    ("annotations", .list Annotation.shape),
    ("tags", Tags.shape),
    ("debug", .flag),
    ("shared", .flag),
    ("error", .optional RecordedError.shape)]

/-- A span as a value, over this value of its tags: every field, those that are not set as null. -/
def valueWith (span : Span) (tags : Value) : Value :=
  .object [
    ("trace_id", .text span.traceId),
    ("parent_id", .ofText? span.parentId),
    ("id", .text span.id),
    ("kind", (span.kind.map Kind.toValue).getD .null),
    ("name", .ofText? span.name),
    ("start_timestamp", .number span.start.toNat),
    ("finish_timestamp", .number span.finish.toNat),
    ("local_endpoint", span.localEndpoint.toValue),
    ("remote_endpoint", span.remoteEndpoint.toValue),
    ("annotations", .list (span.annotations.map Annotation.toValue)),
    ("tags", tags),
    ("debug", .flag span.debug),
    ("shared", .flag span.shared),
    ("error", (span.error.map RecordedError.toValue).getD .null)]

/-- A span as a value, its tags in their order. -/
def toValue (span : Span) : Value := span.valueWith span.tags.toValue

/-- The span that a value describes; its identifiers are taken as they stand. -/
def ofValue? (value : Value) : Option Span := do
  let traceId ← (← value.get? "trace_id").text?
  let parentId ← (← value.get? "parent_id").optional? Value.text?
  let id ← (← value.get? "id").text?
  let kind ← (← value.get? "kind").optional? Kind.ofValue?
  let name ← (← value.get? "name").optional? Value.text?
  let start ← (← value.get? "start_timestamp").number?
  let finish ← (← value.get? "finish_timestamp").number?
  let localEndpoint ← Endpoint.ofValue? (← value.get? "local_endpoint")
  let remoteEndpoint ← Endpoint.ofValue? (← value.get? "remote_endpoint")
  let annotations ← (← value.get? "annotations").items? Annotation.ofValue?
  let tags ← Tags.ofValue? (← value.get? "tags")
  let debug ← (← value.get? "debug").flag?
  let shared ← (← value.get? "shared").flag?
  let error ← (← value.get? "error").optional? RecordedError.ofValue?
  return {
    traceId, parentId, id, kind, name
    start := UInt64.ofNat start
    finish := UInt64.ofNat finish
    localEndpoint, remoteEndpoint, annotations, tags, debug, shared, error }

end Span

/-- A type that is written as JSON. -/
structure Written (α : Type) where
  shape : Shape
  toValue : α → Value
  ofValue? : Value → Option α

namespace Written

/-- The text of a value. -/
def write {α : Type} (form : Written α) (a : α) : String :=
  String.ofList (form.toValue a).render

/-- Reads a whole text. -/
def parse {α : Type} (form : Written α) (text : String) : Except Problem α := do
  match form.ofValue? (← form.shape.parse text) with
  | some a => return a
  | none => throw .malformed

end Written

/-- How spans are written. -/
def Span.written : Written Span := ⟨shape, toValue, ofValue?⟩

/-- How endpoints are written. -/
def Endpoint.written : Written Endpoint := ⟨shape, toValue, ofValue?⟩

/-- How events are written. -/
def Annotation.written : Written Annotation := ⟨shape, toValue, ofValue?⟩

/-- How failures are written. -/
def RecordedError.written : Written RecordedError := ⟨shape, toValue, ofValue?⟩

/-- How kinds are written. -/
def Kind.written : Written Kind := ⟨shape, toValue, ofValue?⟩

/-- How encodings are written. -/
def Encoding.written : Written Encoding := ⟨shape, toValue, ofValue?⟩

theorem Kind.ofValue?_toValue (kind : Kind) : ofValue? kind.toValue = some kind :=
  ofName?_name kind

theorem Endpoint.ofValue?_toValue (endpoint : Endpoint) :
    ofValue? endpoint.toValue = some endpoint := by
  obtain ⟨serviceName, ip, port⟩ := endpoint
  cases serviceName <;> cases ip <;>
    simp [ofValue?, toValue, Value.get?, List.lookup_cons, Value.ofText?, Value.optional?,
      Value.text?, Value.number?]

theorem Annotation.ofValue?_toValue (a : Annotation) : ofValue? a.toValue = some a := by
  simp [ofValue?, toValue, Value.get?, List.lookup_cons, Value.text?, Value.number?]

theorem RecordedError.ofValue?_toValue (error : RecordedError) :
    ofValue? error.toValue = some error := by
  obtain ⟨kind, message⟩ := error
  cases message <;>
    simp [ofValue?, toValue, Value.get?, List.lookup_cons, Value.ofText?, Value.optional?,
      Value.text?]

end SpanCourier
