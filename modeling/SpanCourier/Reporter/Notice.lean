import SpanCourier.Clock
import SpanCourier.Fault

set_option autoImplicit false

/-! # Notices

What a reporter writes to its log. The first failed send is a warning and later ones are not; so
are a worker that crashes, a close that runs out of time and spans that are dropped at close.
-/

namespace SpanCourier

/-- The weight of a notice. -/
inductive Level
  | warn
  | debug
deriving DecidableEq, Repr

/-- The written name of a level. -/
def Level.name : Level → String
  | .warn => "WARN"
  | .debug => "DEBUG"

/-- An entry of the log. -/
inductive Notice
  | workerStarted (transport : String)
  | workerStopping (error : ReporterError)
  | lastFlushFailed (error : ReporterError)
  | workerStopped (dropped : Nat)
  | workerCrashed (dropped : Nat)
  | sendFailed (first : Bool) (spans : Nat) (transport : String) (error : TransportError)
  | overflowed (maxBytes : Nat)
  | closeTimedOut (timeout : Duration)
  | droppedAtClose (dropped : Nat)
deriving DecidableEq, Repr

namespace Notice

/-- The weight of a notice. -/
def level : Notice → Level
  | workerCrashed _ => .warn
  | sendFailed true _ _ _ => .warn
  | closeTimedOut _ => .warn
  | droppedAtClose _ => .warn
  | _ => .debug

/-- The text of a notice. -/
def message : Notice → String
  | workerStarted _ => "flush worker started"
  | workerStopping _ => "flush worker stopping"
  | lastFlushFailed _ => "final flush failed"
  | workerStopped _ => "flush worker stopped"
  | workerCrashed _ => "flush worker exited during a panic"
  | sendFailed _ _ _ _ => "dropped spans after send failure"
  | overflowed _ => "dropped span that overflowed the message"
  | closeTimedOut _ => "timed out waiting for the flush worker to finish"
  | droppedAtClose _ => "dropped spans still queued at close"

/-- The named values of a notice. -/
def details : Notice → List (String × String)
  | workerStarted transport => [("transport", transport)]
  | workerStopping error => [("error", error.message)]
  | lastFlushFailed error => [("error", error.message)]
  | workerStopped dropped => [("dropped", toString dropped)]
  | workerCrashed dropped => [("dropped", toString dropped)]
  | sendFailed _ spans transport error =>
    [("spans", toString spans), ("transport", transport), ("error", error.message)]
  | overflowed maxBytes => [("max_bytes", toString maxBytes)]
  | closeTimedOut timeout => [("timeout", Duration.text timeout)]
  | droppedAtClose dropped => [("dropped", toString dropped)]

end Notice

end SpanCourier
