import SpanCourier.Encoder
import SpanCourier.Settings.Basic
import SpanCourier.Transport.Basic

set_option autoImplicit false

/-! # Setting up a reporter

An order names a transport, settings and, if need be, an encoder. Building it settles what the
reporter works with, or says what is wrong: settings first, then the encoding, then the runtime
that sending in the background needs.
-/

namespace SpanCourier

/-- What a reporter works with. The message limit is never above the transport's own. -/
structure Reporter where
  encoder : Encoder
  transport : Transport
  messageMaxBytes : Nat
  messageTimeout : Duration
  closeTimeout : Duration
  queuedMaxSpans : Nat
  queuedMaxBytes : Option Nat

/-- What a reporter is built from. The tagger counts only if no encoder is named. -/
structure Order where
  transport : Transport
  settings : Settings := {}
  encoder : Option Encoder := none
  tagger : Option ErrorTagger := none
  runtime : Bool := true

namespace Order

/-- The encoder of an order: the one that is named, or Proto3 with the tagger. -/
def chosenEncoder (order : Order) : Encoder :=
  order.encoder.getD (Encoder.proto3 (order.tagger.getD .standard))

/-- The message limit of an order: that of the settings, but at most the transport's. -/
def messageMaxBytes (order : Order) : Nat :=
  match order.settings.messageMaxBytes with
  | none => order.transport.maxBytes
  | some bytes => min bytes order.transport.maxBytes

/-- The reporter of an order. -/
def build (order : Order) : Except ReporterError Reporter := do
  order.settings.validate
  let encoder := order.chosenEncoder
  if encoder.encoding ≠ order.transport.encoding then
    throw (.encodingMismatch encoder.encoding order.transport.encoding)
  if order.settings.background && !order.runtime then
    throw .noRuntime
  return {
    encoder
    transport := order.transport
    messageMaxBytes := order.messageMaxBytes
    messageTimeout := order.settings.messageTimeout
    closeTimeout := order.settings.closeTimeout
    queuedMaxSpans := order.settings.queuedMaxSpans
    queuedMaxBytes := order.settings.queuedMaxBytes }

/-- An order that can be built names settings that are in order, and an encoder and a transport of
one encoding; its reporter is put together from these. -/
theorem eq_of_build {order : Order} {r : Reporter} (h : order.build = .ok r) :
    order.settings.validate = .ok ()
      ∧ order.chosenEncoder.encoding = order.transport.encoding
      ∧ (order.settings.background && !order.runtime) = false
      ∧ r = {
        encoder := order.chosenEncoder
        transport := order.transport
        messageMaxBytes := order.messageMaxBytes
        messageTimeout := order.settings.messageTimeout
        closeTimeout := order.settings.closeTimeout
        queuedMaxSpans := order.settings.queuedMaxSpans
        queuedMaxBytes := order.settings.queuedMaxBytes } := by
  unfold build at h
  -- each check that fails ends in an error, so all of them have passed
  cases hv : order.settings.validate with
  | error e =>
    rw [hv] at h
    cases h
  | ok _ =>
    rw [hv] at h
    by_cases he : order.chosenEncoder.encoding = order.transport.encoding
    · by_cases hr : (order.settings.background && !order.runtime) = true
      · simp [he, hr, bind, Except.bind, throw, throwThe, MonadExceptOf.throw] at h
      · simp only [ne_eq, he, not_true_eq_false, if_false, hr, bind, Except.bind, pure,
          Except.pure] at h
        cases h
        exact ⟨rfl, he, Bool.not_eq_true _ ▸ hr, rfl⟩
    · simp [he, bind, Except.bind, throw, throwThe, MonadExceptOf.throw] at h

theorem messageMaxBytes_le (order : Order) : order.messageMaxBytes ≤ order.transport.maxBytes := by
  rw [messageMaxBytes]
  split
  · exact Nat.le_refl _
  · exact Nat.min_le_right ..

end Order

/-- Messages are sent in the background. -/
def Reporter.background (r : Reporter) : Bool := r.messageTimeout ≠ 0

end SpanCourier
