import SpanCourier.Settings.Basic
import SpanCourier.Span.Json

set_option autoImplicit false

/-! # Settings as JSON

Timeouts are written in whole milliseconds, cut off below and reduced to 64 bits. A field that is
left out keeps its usual value.
-/

namespace SpanCourier

open Json

namespace Settings

/-- The milliseconds that stand for a duration. -/
def writtenMillis (d : Duration) : Nat := Duration.toMillis d % wordBound

/-- The fields of settings, any of which may be left out. -/
def shape : Shape :=
  .record true [
    ("message_max_bytes", .optional (.number wordBound)),
    ("message_timeout_ms", .number wordBound),
    ("close_timeout_ms", .number wordBound),
    ("queued_max_spans", .number wordBound),
    ("queued_max_bytes", .optional (.number wordBound))]

/-- Settings as a value: every field, with timeouts as they are written. -/
def toValue (settings : Settings) : Value :=
  .object [
    ("message_max_bytes", .ofNumber? settings.messageMaxBytes),
    ("message_timeout_ms", .number (writtenMillis settings.messageTimeout)),
    ("close_timeout_ms", .number (writtenMillis settings.closeTimeout)),
    ("queued_max_spans", .number settings.queuedMaxSpans),
    ("queued_max_bytes", .ofNumber? settings.queuedMaxBytes)]

/-- A field as it is read, or its usual value if it is left out. -/
def fieldOr {α : Type} (value : Value) (name : String) (read : Value → Option α) (usual : α) :
    Option α :=
  match value.get? name with
  | none => some usual
  | some item => read item

/-- The settings that a value describes. -/
def ofValue? (value : Value) : Option Settings := do
  let usual : Settings := {}
  let limit := Value.optional? Value.number?
  let time := fun (item : Value) => item.number?.map Duration.ofMillis
  return {
    messageMaxBytes := ← fieldOr value "message_max_bytes" limit usual.messageMaxBytes
    messageTimeout := ← fieldOr value "message_timeout_ms" time usual.messageTimeout
    closeTimeout := ← fieldOr value "close_timeout_ms" time usual.closeTimeout
    queuedMaxSpans := ← fieldOr value "queued_max_spans" Value.number? usual.queuedMaxSpans
    queuedMaxBytes := ← fieldOr value "queued_max_bytes" limit usual.queuedMaxBytes }

/-- How settings are written. -/
def written : Written Settings := ⟨shape, toValue, ofValue?⟩

end Settings

end SpanCourier
