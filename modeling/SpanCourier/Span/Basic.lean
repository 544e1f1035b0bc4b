import SpanCourier.Span.Tags
import SpanCourier.Text.Split

set_option autoImplicit false

/-! # Spans

A span is one timed operation of a trace, as instrumentation hands it over: identifiers in
hexadecimal text, two timestamps in microseconds since the epoch (zero for unset), the two ends
of the connection, timed events, tags and, if the operation failed, the failure.
-/

namespace SpanCourier

/-- The part an operation plays in a conversation. -/
inductive Kind
  | client
  | server
  | producer
  | consumer
deriving DecidableEq, Repr, Inhabited

namespace Kind

/-- The number of a kind on the wire; zero is kept for an unspecified kind. -/
def number : Kind → Nat
  | client => 1
  | server => 2
  | producer => 3
  | consumer => 4

/-- The written name of a kind. -/
def name : Kind → String
  | client => "Client"
  | server => "Server"
  | producer => "Producer"
  | consumer => "Consumer"

/-- Every kind, in the order of the numbers. -/
def all : List Kind := [client, server, producer, consumer]

/-- The kind with a written name. -/
def ofName? (s : String) : Option Kind := all.find? fun kind => kind.name = s

theorem ofName?_name (kind : Kind) : ofName? kind.name = some kind := by
  cases kind <;> decide

end Kind

/-- The network place of one side of a span; port zero means unknown. -/
structure Endpoint where
  serviceName : Option String := none
  ip : Option String := none
  port : UInt16 := 0
deriving DecidableEq, Inhabited

/-- Nothing is known about an endpoint: its texts are absent or empty and it has no port. -/
def Endpoint.isEmpty (endpoint : Endpoint) : Bool :=
  endpoint.serviceName.getD "" = "" && endpoint.ip.getD "" = "" && endpoint.port = 0

/-- An event within a span, at microseconds since the epoch. -/
structure Annotation where
  timestamp : UInt64
  value : String
deriving DecidableEq, Inhabited

/-- A failure recorded on a span: a short name of what failed, and its text if it had one. -/
structure RecordedError where
  kind : String
  message : Option String := none
deriving DecidableEq, Inhabited

/-- What follows the last doubled colon of a path, or the whole path. -/
def lastSegment (path : List Char) : List Char :=
  match cutPair ':' path.reverse with
  | some (back, _) => back.reverse
  | none => path

example : lastSegment "a::b::Wrap<c::Text>".toList = "Text>".toList := by decide
example : lastSegment "a:b".toList = "a:b".toList := by decide

/-- Records a failure: its kind is the last segment of the path of its type, and an empty text
counts as no text. -/
def RecordedError.ofFailure (path text : String) : RecordedError where
  kind := String.ofList (lastSegment path.toList)
  message := if text = "" then none else some text

/-- A finished span. -/
structure Span where
  traceId : String
  parentId : Option String := none
  id : String
  kind : Option Kind := none
  name : Option String := none
  start : UInt64 := 0
  finish : UInt64 := 0
  localEndpoint : Endpoint := {}
  remoteEndpoint : Endpoint := {}
  annotations : List Annotation := []
  tags : Tags := {}
  debug : Bool := false
  shared : Bool := false
  error : Option RecordedError := none
deriving DecidableEq, Inhabited

namespace Span

/-- Sets a tag, over an earlier value of the same key. -/
def tag (span : Span) (key value : String) : Span :=
  { span with tags := span.tags.insert key value }

/-- Adds an event after those already there. -/
def annotate (span : Span) (timestamp : UInt64) (value : String) : Span :=
  { span with annotations := span.annotations ++ [⟨timestamp, value⟩] }

/-- Sets the time at which the operation ended. -/
def finishAt (span : Span) (timestamp : UInt64) : Span := { span with finish := timestamp }

/-- The microseconds between the timestamps, if both are set. A span never lasts less than one
microsecond, even if it ends before it starts. -/
def duration? (span : Span) : Option Nat :=
  if span.start = 0 ∨ span.finish = 0 then none
  else some (max 1 (span.finish.toNat - span.start.toNat))

end Span

end SpanCourier
