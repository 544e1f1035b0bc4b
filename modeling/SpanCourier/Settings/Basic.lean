import SpanCourier.Clock
import SpanCourier.Fault

set_option autoImplicit false

/-! # Settings

How large a message may be, how long it may wait, how long closing may take, and how much may be
queued. A limit that admits nothing is refused.
-/

namespace SpanCourier

/-- The settings of a reporter. Without a message limit the transport's own holds; without a
queue byte limit the queue is bounded by count alone. A message timeout of zero means that
messages are sent on request only. -/
structure Settings where
  messageMaxBytes : Option Nat := none
  messageTimeout : Duration := Duration.second
  closeTimeout : Duration := Duration.second
  queuedMaxSpans : Nat := 10000
  queuedMaxBytes : Option Nat := some (4 * 1024 * 1024)
deriving DecidableEq

namespace Settings

instance : Inhabited Settings := ⟨{}⟩

/-- A limit that must admit something. -/
inductive Limit
  | queuedMaxSpans
  | messageMaxBytes
  | queuedMaxBytes
deriving DecidableEq, Repr

/-- The written name of a limit. -/
def Limit.name : Limit → String
  | .queuedMaxSpans => "queued_max_spans"
  | .messageMaxBytes => "message_max_bytes"
  | .queuedMaxBytes => "queued_max_bytes"

/-- The first limit that is zero. -/
def zeroLimit? (settings : Settings) : Option Limit :=
  if settings.queuedMaxSpans = 0 then some .queuedMaxSpans
  else if settings.messageMaxBytes = some 0 then some .messageMaxBytes
  else if settings.queuedMaxBytes = some 0 then some .queuedMaxBytes
  else none

/-- Refuses settings with a limit of zero. -/
def validate (settings : Settings) : Except ReporterError Unit :=
  match settings.zeroLimit? with
  | some limit => .error (.invalidConfig (limit.name ++ " must be greater than zero"))
  | none => .ok ()

/-- Messages are sent in the background. -/
def background (settings : Settings) : Bool := settings.messageTimeout ≠ 0

/-- A change of one setting. -/
inductive Change
  | messageMaxBytes (bytes : Nat)
  | messageTimeout (timeout : Duration)
  | closeTimeout (timeout : Duration)
  | queuedMaxSpans (spans : Nat)
  | queuedMaxBytes (bytes : Option Nat)
deriving DecidableEq, Repr

/-- The settings after a change. -/
def apply (settings : Settings) : Change → Settings
  | .messageMaxBytes bytes => { settings with messageMaxBytes := some bytes }
  | .messageTimeout timeout => { settings with messageTimeout := timeout }
  | .closeTimeout timeout => { settings with closeTimeout := timeout }
  | .queuedMaxSpans spans => { settings with queuedMaxSpans := spans }
  | .queuedMaxBytes bytes => { settings with queuedMaxBytes := bytes }

end Settings

end SpanCourier
