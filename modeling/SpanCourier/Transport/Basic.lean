import SpanCourier.Encoding
import SpanCourier.Fault

set_option autoImplicit false

/-! # Transports

What a reporter knows of a transport before it sends: the encoding that the other side expects,
the largest message it carries, and how large a message is to it. A transport may count more than
the encoding does.
-/

namespace SpanCourier

/-- An encoded span. -/
abbrev Bytes := List UInt8

/-- The sizing of a transport. -/
structure Transport where
  name : String
  encoding : Encoding
  maxBytes : Nat
  messageSize : List Bytes → Nat
  singleSize : Nat → Nat

/-- How a send ends. -/
inductive Outcome
  | sent
  | failed (error : TransportError)
  | crashed
deriving DecidableEq, Repr

namespace Transport

/-- The largest message of a transport that sets no limit of its own: five mebibytes. -/
def usualMaxBytes : Nat := 5 * 1024 * 1024

/-- A transport that sizes messages as their encoding does. -/
def plain (name : String) (encoding : Encoding) (maxBytes : Nat) : Transport where
  name
  encoding
  maxBytes
  messageSize := encoding.messageSize
  singleSize := encoding.singleSize

/-- The transport that accepts everything and keeps nothing. -/
def null (encoding : Encoding) : Transport := plain "null" encoding usualMaxBytes

/-- The transport that keeps what it is sent. -/
def memory (encoding : Encoding) (maxBytes : Nat) : Transport := plain "in_memory" encoding maxBytes

/-- The transport that counts some bytes more for every span, and may have one size for all
messages of one span. -/
def padded (encoding : Encoding) (maxBytes padding : Nat) (single : Option Nat) : Transport where
  name := "custom"
  encoding
  maxBytes
  messageSize spans := encoding.messageSize spans + padding * spans.length
  singleSize size := single.getD (encoding.singleSize size)

/-- A transport sizes messages as its encoding does. -/
def UsualSizing (transport : Transport) : Prop :=
  transport.messageSize = transport.encoding.messageSize
    ∧ transport.singleSize = transport.encoding.singleSize

theorem plain_usualSizing (name : String) (encoding : Encoding) (maxBytes : Nat) :
    (plain name encoding maxBytes).UsualSizing :=
  ⟨rfl, rfl⟩

end Transport

end SpanCourier
