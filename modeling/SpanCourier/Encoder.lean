import SpanCourier.Encoding
import SpanCourier.Wire.SpanEntry

set_option autoImplicit false

/-! # Encoders

An encoder turns a span into bytes and tells beforehand how many there will be. Queues and
messages are budgeted with that number.
-/

namespace SpanCourier

/-- How spans become bytes. -/
structure Encoder where
  encoding : Encoding
  size : Span → Nat
  encode : Span → List UInt8

namespace Encoder

/-- The size that an encoder announces is the number of bytes that it writes. -/
def Exact (encoder : Encoder) : Prop :=
  ∀ span, encoder.size span = (encoder.encode span).length

/-- The encoder that writes spans as entries of a Proto3 list. -/
def proto3 (tagger : ErrorTagger) : Encoder where
  encoding := .proto3
  size span := span.entrySize tagger
  encode span := span.entry tagger

/-- The encoder that writes the name of a span and nothing else. -/
def nameOnly (encoding : Encoding) : Encoder where
  encoding
  size span := (span.name.getD "").utf8ByteSize
  encode span := utf8 (span.name.getD "")

theorem nameOnly_exact (encoding : Encoding) : (nameOnly encoding).Exact := fun _ => rfl

end Encoder

end SpanCourier
