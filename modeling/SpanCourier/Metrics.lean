import SpanCourier.Fault

set_option autoImplicit false

/-! # Metrics

Counters of 64 bits that wrap around, and two gauges for what is queued. Lost messages are
counted by the kind of error that lost them.
-/

namespace SpanCourier

/-- The counters and gauges of a reporter. -/
structure Metrics where
  messages : UInt64 := 0
  messageBytes : UInt64 := 0
  messagesDropped : TransportError.Kind → UInt64 := fun _ => 0
  spans : UInt64 := 0
  spanBytes : UInt64 := 0
  spansDropped : UInt64 := 0
  queuedSpans : UInt64 := 0
  queuedBytes : UInt64 := 0

/-- Something to count, or a new reading of a gauge. -/
inductive Measurement
  | message
  | messageBytes (bytes : Nat)
  | messageDropped (kind : TransportError.Kind)
  | spans (count : Nat)
  | spanBytes (bytes : Nat)
  | spansDropped (count : Nat)
  | queuedSpans (count : Nat)
  | queuedBytes (bytes : Nat)
deriving DecidableEq, Repr

namespace Metrics

/-- All counters and gauges at zero. -/
def zero : Metrics := {}

instance : Inhabited Metrics := ⟨zero⟩

/-- Takes a measurement in. -/
def record (m : Metrics) : Measurement → Metrics
  | .message => { m with messages := m.messages + 1 }
  | .messageBytes n => { m with messageBytes := m.messageBytes + UInt64.ofNat n }
  | .messageDropped kind =>
    { m with
      messagesDropped := fun k =>
        if k = kind then m.messagesDropped k + 1 else m.messagesDropped k }
  | .spans n => { m with spans := m.spans + UInt64.ofNat n }
  | .spanBytes n => { m with spanBytes := m.spanBytes + UInt64.ofNat n }
  | .spansDropped n => { m with spansDropped := m.spansDropped + UInt64.ofNat n }
  | .queuedSpans n => { m with queuedSpans := UInt64.ofNat n }
  | .queuedBytes n => { m with queuedBytes := UInt64.ofNat n }

/-- Lost messages of all kinds. -/
def allMessagesDropped (m : Metrics) : UInt64 :=
  TransportError.Kind.all.foldl (fun n kind => n + m.messagesDropped kind) 0

end Metrics

/-- Where measurements go: into counters, or nowhere. -/
inductive Meter
  | counting
  | silent
deriving DecidableEq, Repr

/-- The counters after a measurement. -/
def Meter.record : Meter → Metrics → Measurement → Metrics
  | .counting, m, x => m.record x
  | .silent, m, _ => m

end SpanCourier
