import SpanCourier.Encoding

set_option autoImplicit false

/-! # Faults

What can go wrong on the way to a collector: a transport that fails to send, and a reporter that
cannot be set up or used any more. Each fault has one text.
-/

namespace SpanCourier

/-- Why a message was not sent. A closed transport never sends again. -/
inductive TransportError
  | closed
  | io (text : String)
  | timeout
  | rejected (status : Nat) (text : String)
  | serialization (text : String)
deriving DecidableEq, Repr, Inhabited

namespace TransportError

/-- The kinds of transport errors, under which lost messages are counted. -/
inductive Kind
  | closed
  | io
  | timeout
  | rejected
  | serialization
deriving DecidableEq, Repr

/-- Every kind, in the order of a report. -/
def Kind.all : List Kind := [.closed, .io, .timeout, .rejected, .serialization]

/-- The written name of a kind. -/
def Kind.name : Kind → String
  | .closed => "closed"
  | .io => "io"
  | .timeout => "timeout"
  | .rejected => "rejected"
  | .serialization => "serialization"

/-- The kind of an error. -/
def kind : TransportError → Kind
  | closed => .closed
  | io _ => .io
  | timeout => .timeout
  | rejected _ _ => .rejected
  | serialization _ => .serialization

/-- The transport will never send again. -/
def isClosed (error : TransportError) : Bool := error.kind = .closed

/-- The text of a transport error. -/
def message : TransportError → String
  | closed => "transport is closed"
  | io text => "i/o error: " ++ text
  | timeout => "send timed out"
  | rejected status text => "rejected with status " ++ toString status ++ ": " ++ text
  | serialization text => "serialization error: " ++ text

@[simp] theorem isClosed_closed : isClosed closed = true := rfl

theorem isClosed_iff {error : TransportError} : error.isClosed = true ↔ error = closed := by
  cases error <;> simp [isClosed, kind]

end TransportError

/-- Why a reporter cannot be set up or used. -/
inductive ReporterError
  | closed
  | transportClosed
  | encodingMismatch (encoder transport : Encoding)
  | invalidConfig (text : String)
  | noRuntime
deriving DecidableEq, Repr, Inhabited

namespace ReporterError

/-- The written name of a reporter error. -/
def name : ReporterError → String
  | closed => "Closed"
  | transportClosed => "TransportClosed"
  | encodingMismatch _ _ => "EncodingMismatch"
  | invalidConfig _ => "InvalidConfig"
  | noRuntime => "NoRuntime"

/-- The text of a reporter error. -/
def message : ReporterError → String
  | closed => "reporter is closed"
  | transportClosed => "transport is closed"
  | encodingMismatch encoder transport =>
    "encoder produces " ++ encoder.label ++ " but transport expects " ++ transport.label
  | invalidConfig text => "invalid configuration: " ++ text
  | noRuntime => "no tokio runtime available to run the flush worker"

end ReporterError

end SpanCourier
