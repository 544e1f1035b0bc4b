import SpanCourier.Wire.Reader
import SpanCourier.Wire.SpanEntry

set_option autoImplicit false

/-! # What the other side reads

A collector takes a message apart by its fields. A field that is absent has its zero value, of a
field that stands more than once the last counts, and the entries of a repeated field are kept in
order. `Span.decoded` gathers what the fields hold that are written of a span, without going through
its bytes.
-/

namespace SpanCourier

/-- An endpoint as a collector reads it. -/
structure DecodedEndpoint where
  serviceName : String := ""
  ipv4 : List UInt8 := []
  ipv6 : List UInt8 := []
  port : Nat := 0
deriving DecidableEq, Repr

/-- A span as a collector reads it. -/
structure DecodedSpan where
  traceId : List UInt8 := []
  parentId : List UInt8 := []
  id : List UInt8 := []
  kind : Nat := 0
  name : String := ""
  timestamp : Nat := 0
  duration : Nat := 0
  localEndpoint : Option DecodedEndpoint := none
  remoteEndpoint : Option DecodedEndpoint := none
  annotations : List (Nat × String) := []
  tags : List (String × String) := []
  debug : Bool := false
  shared : Bool := false
deriving DecidableEq, Repr

/-! ## Reading -/

/-- Reads a message by its fields: each changes what has been read so far. -/
def readMessage? {α : Type} (start : α) (absorb : α → Nat × Field.Content → Option α)
    (bytes : List UInt8) : Option α :=
  (Field.readAll? bytes).bind fun fields => fields.foldlM absorb start

/-- Takes in a field of an endpoint. -/
def DecodedEndpoint.absorb (e : DecodedEndpoint) : Nat × Field.Content → Option DecodedEndpoint
  | (1, .bytes b) => (ofUtf8? b).map fun s => { e with serviceName := s }
  | (2, .bytes b) => some { e with ipv4 := b }
  | (3, .bytes b) => some { e with ipv6 := b }
  | (4, .number n) => some { e with port := n }
  | _ => none

/-- Takes in a field of an event. -/
def absorbAnnotation (a : Nat × String) : Nat × Field.Content → Option (Nat × String)
  | (1, .word n) => some (n, a.2)
  | (2, .bytes b) => (ofUtf8? b).map fun s => (a.1, s)
  | _ => none

/-- Takes in a field of a tag. -/
def absorbTag (t : String × String) : Nat × Field.Content → Option (String × String)
  | (1, .bytes b) => (ofUtf8? b).map fun s => (s, t.2)
  | (2, .bytes b) => (ofUtf8? b).map fun s => (t.1, s)
  | _ => none

/-- Takes in a field of a span. -/
def DecodedSpan.absorb (s : DecodedSpan) : Nat × Field.Content → Option DecodedSpan
  | (1, .bytes b) => some { s with traceId := b }
  | (2, .bytes b) => some { s with parentId := b }
  | (3, .bytes b) => some { s with id := b }
  | (4, .number n) => some { s with kind := n }
  | (5, .bytes b) => (ofUtf8? b).map fun name => { s with name }
  | (6, .word n) => some { s with timestamp := n }
  | (7, .number n) => some { s with duration := n }
  | (8, .bytes b) =>
    (readMessage? {} DecodedEndpoint.absorb b).map fun e => { s with localEndpoint := some e }
  | (9, .bytes b) =>
    (readMessage? {} DecodedEndpoint.absorb b).map fun e => { s with remoteEndpoint := some e }
  | (10, .bytes b) =>
    (readMessage? (0, "") absorbAnnotation b).map fun a =>
      { s with annotations := s.annotations ++ [a] }
  | (11, .bytes b) =>
    (readMessage? ("", "") absorbTag b).map fun t => { s with tags := s.tags ++ [t] }
  | (12, .number n) => some { s with debug := n ≠ 0 }
  | (13, .number n) => some { s with shared := n ≠ 0 }
  | _ => none

/-- Reads a list of spans. -/
def decodeList? : List UInt8 → Option (List DecodedSpan) :=
  readMessage? [] fun spans field =>
    match field with
    | (1, .bytes b) => (readMessage? {} DecodedSpan.absorb b).map fun s => spans ++ [s]
    | _ => none

/-! ## What fields hold -/

/-- What the field of an endpoint holds: nothing if nothing of it can be written. -/
def Endpoint.decoded (endpoint : Endpoint) : Option DecodedEndpoint :=
  let e : DecodedEndpoint := {
    serviceName := endpoint.serviceName.getD ""
    ipv4 := match endpoint.address? with
      | some (.v4 address) => address.octets
      | _ => []
    ipv6 := match endpoint.address? with
      | some (.v6 address) => address.bytes
      | _ => []
    port := endpoint.port.toNat }
  if e = {} then none else some e

/-- What the fields of a span hold. -/
def Span.decoded (span : Span) (tagger : ErrorTagger) : DecodedSpan where
  traceId := idBytes span.traceId
  parentId := (span.parentId.map idBytes).getD []
  id := idBytes span.id
  kind := span.kindNumber
  name := span.name.getD ""
  timestamp := span.start.toNat
  duration := span.wireDuration
  localEndpoint := span.localEndpoint.decoded
  remoteEndpoint := span.remoteEndpoint.decoded
  annotations := span.annotations.map fun a => (a.timestamp.toNat, a.value)
  tags := span.tags.entries ++ ((tagger.tag? span).map fun v => (tagger.key, v)).toList
  debug := span.debug
  shared := span.shared

example : decodeList? [0x0a, 0x04, 0x2a, 0x02, 0x68, 0x69, 0x0a, 0x02, 0x60, 0x01] =
    some [{ name := "hi" }, { debug := true }] := by
  decide +kernel

end SpanCourier
