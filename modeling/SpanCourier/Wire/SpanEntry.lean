import SpanCourier.Address.Basic
import SpanCourier.ErrorTag
import SpanCourier.Text.Hex
import SpanCourier.Wire.Field

set_option autoImplicit false

/-! # Spans on the wire

A message is a list of spans, and each span is an entry of that list: a key, a length and the
fields of the span. Writing takes two passes. The first measures the span and keeps what the
second would find again; the second writes the lengths found by the first and then the content.

The fields of a span are 1 trace id, 2 parent id, 3 id, 4 kind, 5 name, 6 timestamp, 7 duration,
8 local and 9 remote endpoint, 10 annotations, 11 tags, 12 debug and 13 shared. An endpoint has 1
service name, 2 IPv4 address, 3 IPv6 address and 4 port; an annotation 1 timestamp and 2 value; a
tag 1 key and 2 value.
-/

namespace SpanCourier

/-! ## Parts of a span -/

/-- The bytes of an identifier: none unless it is an even row of 2 to 32 digits. -/
def idBytes (id : String) : List UInt8 :=
  if id.toList.length ≤ 32 then (bytesOfHex? id.toList).getD [] else []

/-- How many bytes an identifier field takes. -/
def idFieldSize (id : String) : Nat := Field.delimitedSize (idBytes id).length

namespace Endpoint

/-- The address of an endpoint, if its text is one. -/
def address? (endpoint : Endpoint) : Option Address :=
  endpoint.ip.bind fun text => Address.ofChars? text.toList

/-- The number of the field that holds an address. -/
def addressField : Address → Nat
  | .v4 _ => 2
  | .v6 _ => 3

/-- The field that holds an address. -/
def writeAddress : Option Address → List UInt8
  | none => []
  | some address => Field.delimited (addressField address) address.bytes

end Endpoint

/-- What the first pass finds of an endpoint. -/
structure MeasuredEndpoint where
  address : Option Address
  length : Nat

namespace Endpoint

/-- Measures an endpoint. -/
def measure (endpoint : Endpoint) : MeasuredEndpoint :=
  let address := endpoint.address?
  { address
    length :=
      Field.delimitedSize ((endpoint.serviceName.map String.utf8ByteSize).getD 0)
        + (address.map fun a => Field.delimitedSize a.bytes.length).getD 0
        + Field.varintSize endpoint.port.toNat }

/-- The content of an endpoint. -/
def content (endpoint : Endpoint) (address : Option Address) : List UInt8 :=
  Field.delimited 1 (utf8 (endpoint.serviceName.getD ""))
    ++ writeAddress address
    ++ Field.varint 4 endpoint.port.toNat

end Endpoint

namespace MeasuredEndpoint

/-- How many bytes the field of an endpoint takes: none if it has no content. -/
def fieldSize (m : MeasuredEndpoint) : Nat :=
  if m.length = 0 then 0 else Field.entrySize m.length

/-- The field of an endpoint, left out if it has no content. -/
def write (m : MeasuredEndpoint) (number : Nat) (endpoint : Endpoint) : List UInt8 :=
  if m.length = 0 then []
  else Field.head number m.length ++ endpoint.content m.address

end MeasuredEndpoint

namespace Annotation

/-- How many bytes the content of an event takes. -/
def contentSize (a : Annotation) : Nat :=
  Field.fixed64Size a.timestamp + Field.delimitedSize a.value.utf8ByteSize

/-- The content of an event. -/
def content (a : Annotation) : List UInt8 :=
  Field.fixed64 1 a.timestamp ++ Field.delimited 2 (utf8 a.value)

/-- The entry of an event, written even when it is empty. -/
def write (a : Annotation) : List UInt8 := Field.head 10 a.contentSize ++ a.content

end Annotation

namespace TagEntry

/-- How many bytes the content of a tag takes. -/
def contentSize (key value : String) : Nat :=
  Field.delimitedSize key.utf8ByteSize + Field.delimitedSize value.utf8ByteSize

/-- The content of a tag. -/
def content (key value : String) : List UInt8 :=
  Field.delimited 1 (utf8 key) ++ Field.delimited 2 (utf8 value)

/-- The entry of a tag, written even when key and value are empty. -/
def write (key value : String) : List UInt8 :=
  Field.head 11 (contentSize key value) ++ content key value

end TagEntry

/-! ## Spans -/

/-- What the first pass finds of a span. -/
structure MeasuredSpan where
  length : Nat
  localEndpoint : MeasuredEndpoint
  remoteEndpoint : MeasuredEndpoint
  errorTag : Option String

namespace Span

/-- The number of a span's kind; zero if it has none. -/
def kindNumber (span : Span) : Nat := (span.kind.map Kind.number).getD 0

/-- The duration on the wire; zero if it has none. -/
def wireDuration (span : Span) : Nat := span.duration?.getD 0

/-- Measures a span. -/
def measure (span : Span) (tagger : ErrorTagger) : MeasuredSpan :=
  let localEndpoint := span.localEndpoint.measure
  let remoteEndpoint := span.remoteEndpoint.measure
  let errorTag := tagger.tag? span
  { localEndpoint, remoteEndpoint, errorTag
    length :=
      idFieldSize span.traceId
        + (span.parentId.map idFieldSize).getD 0
        + idFieldSize span.id
        + Field.varintSize span.kindNumber
        + Field.delimitedSize ((span.name.map String.utf8ByteSize).getD 0)
        + Field.fixed64Size span.start
        + Field.varintSize span.wireDuration
        + localEndpoint.fieldSize
        + remoteEndpoint.fieldSize
        + Field.entriesSize (span.annotations.map Annotation.contentSize)
        + Field.entriesSize (span.tags.entries.map fun tag => TagEntry.contentSize tag.1 tag.2)
        + (errorTag.map fun v => Field.entrySize (TagEntry.contentSize tagger.key v)).getD 0
        + Field.flagSize span.debug
        + Field.flagSize span.shared }

/-- The content of a span that has been measured. -/
def content (span : Span) (tagger : ErrorTagger) (m : MeasuredSpan) : List UInt8 :=
  Field.delimited 1 (idBytes span.traceId)
    ++ (span.parentId.map fun id => Field.delimited 2 (idBytes id)).getD []
    ++ Field.delimited 3 (idBytes span.id)
    ++ Field.varint 4 span.kindNumber
    ++ Field.delimited 5 (utf8 (span.name.getD ""))
    ++ Field.fixed64 6 span.start
    ++ Field.varint 7 span.wireDuration
    ++ m.localEndpoint.write 8 span.localEndpoint
    ++ m.remoteEndpoint.write 9 span.remoteEndpoint
    ++ span.annotations.flatMap Annotation.write
    ++ span.tags.entries.flatMap (fun tag => TagEntry.write tag.1 tag.2)
    ++ (m.errorTag.map fun v => TagEntry.write tagger.key v).getD []
    ++ Field.flag 12 span.debug
    ++ Field.flag 13 span.shared

/-- How many bytes the entry of a span takes, found by the first pass alone. -/
def entrySize (span : Span) (tagger : ErrorTagger) : Nat :=
  Field.entrySize (span.measure tagger).length

/-- The entry of a span in a list of spans. -/
def entry (span : Span) (tagger : ErrorTagger) : List UInt8 :=
  let m := span.measure tagger
  Field.head 1 m.length ++ span.content tagger m

/-- A list of spans as one message: all are measured, then all are written. -/
def message (spans : List Span) (tagger : ErrorTagger) : List UInt8 :=
  let measured := spans.map fun span => span.measure tagger
  (spans.zip measured).flatMap fun (span, m) => Field.head 1 m.length ++ span.content tagger m

theorem message_eq (spans : List Span) (tagger : ErrorTagger) :
    message spans tagger = spans.flatMap fun span => span.entry tagger := by
  induction spans with
  | nil => rfl
  | cons span rest ih =>
    simp only [message] at ih
    simp [message, entry, ih]

end Span

end SpanCourier
