set_option autoImplicit false

/-! # The wake-up signal

A drainer that finds nothing waits for a signal. A notification goes to a waiting drainer first;
with nobody waiting it is stored as a permit, of which there is never more than one. Whoever
starts to drain takes the permit.
-/

namespace SpanCourier

/-- A drainer and its wait: there is none, it waits, or it has been notified and will go on. -/
inductive Waiter
  | absent
  | waiting
  | notified
deriving DecidableEq, Repr

/-- The stored permit and the waiting drainer. -/
structure Signal where
  permit : Bool := false
  waiter : Waiter := .absent
deriving DecidableEq, Repr

namespace Signal

/-- Notifies the waiting drainer, or stores a permit. -/
def notify (s : Signal) : Signal :=
  match s.waiter with
  | .waiting => { s with waiter := .notified }
  | _ => { s with permit := true }

/-- Takes the permit, if there is one. -/
def takePermit (s : Signal) : Signal := { s with permit := false }

/-- A drainer starts to wait. -/
def await (s : Signal) : Signal := { s with waiter := .waiting }

/-- The drainer stops waiting. -/
def leave (s : Signal) : Signal := { s with waiter := .absent }

@[simp] theorem waiter_takePermit (s : Signal) : s.takePermit.waiter = s.waiter := rfl

@[simp] theorem permit_leave (s : Signal) : s.leave.permit = s.permit := rfl

theorem notify_of_waiting {s : Signal} (h : s.waiter = .waiting) :
    s.notify = { s with waiter := .notified } := by
  rw [notify, h]

theorem notify_of_not_waiting {s : Signal} (h : s.waiter ≠ .waiting) :
    s.notify = { s with permit := true } := by
  rw [notify]
  split
  · next hw => exact absurd hw h
  · rfl

/-- A drainer that waits, or has been notified already, is notified. -/
theorem waiter_notify {s : Signal} (h : s.waiter ≠ .absent) : s.notify.waiter = .notified := by
  cases hw : s.waiter with
  | absent => exact absurd hw h
  | waiting => rw [notify_of_waiting hw]
  | notified =>
    rw [notify_of_not_waiting (by rw [hw]; simp)]
    exact hw

end Signal

end SpanCourier
