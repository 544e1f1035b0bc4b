import SpanCourier.Proofs.Json.Soundness
import SpanCourier.Proofs.Span.ReadBack
import SpanCourier.Settings.Json

set_option autoImplicit false

/-! # Settings are read back

Settings are made from the usual ones, or from those of a text, by changes (`Settings.Made`). Their
limits are words (`Made.fits`), so what is written of them is read again, with each timeout cut to
what its written milliseconds say (`parse_write`). A timeout is cut to nothing if its whole
milliseconds are a multiple of the word bound; only then does background sending get lost.
-/

namespace SpanCourier

open Json
open Json.Shape

theorem Written.exists_of_parse {α : Type} {form : Written α} {text : String} {a : α}
    (h : form.parse text = .ok a) :
    ∃ value, form.shape.parse text = .ok value ∧ form.ofValue? value = some a := by
  have hparse : Yields (form.parse text) fun a =>
      ∃ value, form.shape.parse text = .ok value ∧ form.ofValue? value = some a := by
    refine .bind (fun value hvalue => hvalue) fun value hvalue => ?_
    split
    · next a ha => exact .ok ⟨value, hvalue, ha⟩
    · exact .error
  exact hparse a h

namespace Settings

/-! ## Settings whose limits are words -/

/-- The limits of settings are words. -/
structure Fits (settings : Settings) : Prop where
  messageMaxBytes : ∀ bytes ∈ settings.messageMaxBytes, bytes < wordBound
  queuedMaxSpans : settings.queuedMaxSpans < wordBound
  queuedMaxBytes : ∀ bytes ∈ settings.queuedMaxBytes, bytes < wordBound

/-- A changed limit is a word; a timeout may be any. -/
def Change.Fits : Change → Prop
  | .messageMaxBytes bytes => bytes < wordBound
  | .messageTimeout _ => True
  | .closeTimeout _ => True
  | .queuedMaxSpans spans => spans < wordBound
  | .queuedMaxBytes bytes => ∀ n ∈ bytes, n < wordBound

/-- The settings that come from the usual ones or from a text by changes. -/
inductive Made : Settings → Prop
  | usual : Made {}
  | read {text : String} {settings : Settings} (h : written.parse text = .ok settings) :
    Made settings
  | apply {settings : Settings} {change : Change} (h : Made settings) (hchange : change.Fits) :
    Made (settings.apply change)

theorem fits_usual : Fits {} where
  messageMaxBytes := by simp
  queuedMaxSpans := by decide
  queuedMaxBytes := by decide

theorem Fits.apply {settings : Settings} (h : settings.Fits) :
    ∀ {change : Change}, change.Fits → (settings.apply change).Fits
  | .messageMaxBytes _, hchange =>
    { h with messageMaxBytes := fun _ hn => Option.some.inj hn ▸ hchange }
  | .messageTimeout _, _ => { h with }
  | .closeTimeout _, _ => { h with }
  | .queuedMaxSpans _, hchange => { h with queuedMaxSpans := hchange }
  | .queuedMaxBytes _, hchange => { h with queuedMaxBytes := hchange }

/-- What a field is read as has a property if its usual value has it, and what is read of an item
that the field admits. -/
theorem of_fieldOr {α : Type} (P : α → Prop) {lenient : Bool} {fields : List (String × Shape)}
    {value : Value} {name : String} {read : Value → Option α} {usual a : α}
    (h : fieldOr value name read usual = some a) (hadmits : (record lenient fields).Admits value)
    (husual : P usual)
    (hread : ∀ item, FieldAdmits fields (name, item) → read item = some a → P a) : P a := by
  rw [fieldOr] at h
  split at h
  · exact Option.some.inj h ▸ husual
  · next item hget => exact hread item (hadmits.field hget) h

/-- A limit that is read is a word, unless it is null. -/
theorem limit_lt {item : Value} {limit : Option Nat}
    (h : (Shape.optional (.number wordBound)).Admits item)
    (hlimit : item.optional? Value.number? = some limit) : ∀ n ∈ limit, n < wordBound := by
  rcases h with rfl | h
  · obtain rfl := Option.some.inj hlimit
    exact fun n hn => absurd hn (Option.not_mem_none n)
  · obtain ⟨m, hm, rfl⟩ := h
    obtain rfl := Option.some.inj hlimit
    exact fun n hn => Option.some.inj hn ▸ hm

/-- What is read of a text has words for limits. -/
theorem fits_of_parse {text : String} {settings : Settings}
    (h : written.parse text = .ok settings) : settings.Fits := by
  obtain ⟨value, hvalue, h⟩ := Written.exists_of_parse h
  have hadmits : shape.Admits value := admits_of_parse hvalue
  simp only [written, ofValue?, Option.bind_eq_bind, Option.bind_eq_some_iff] at h
  obtain ⟨messageMaxBytes, hmessage, messageTimeout, -, closeTimeout, -, queuedMaxSpans, hspans,
    queuedMaxBytes, hbytes, h⟩ := h
  obtain rfl := Option.some.inj h
  refine ⟨?_, ?_, ?_⟩
  · refine of_fieldOr (∀ n ∈ ·, n < wordBound) hmessage hadmits fits_usual.messageMaxBytes
      fun item hfield => ?_
    exact limit_lt (by simpa [FieldAdmits] using hfield)
  · refine of_fieldOr (· < wordBound) hspans hadmits fits_usual.queuedMaxSpans fun item hfield => ?_
    exact Admits.number?_lt (by simpa [FieldAdmits] using hfield)
  · refine of_fieldOr (∀ n ∈ ·, n < wordBound) hbytes hadmits fits_usual.queuedMaxBytes
      fun item hfield => ?_
    exact limit_lt (by simpa [FieldAdmits] using hfield)

/-- Settings have words for limits, however they are made. -/
theorem Made.fits {settings : Settings} (h : settings.Made) : settings.Fits := by
  induction h with
  | usual => exact fits_usual
  | read h => exact fits_of_parse h
  | apply _ hchange ih => exact ih.apply hchange

/-! ## What is written of settings -/

/-- A timeout as it is read back: its written milliseconds. -/
def writtenTimeout (d : Duration) : Duration := Duration.ofMillis (writtenMillis d)

theorem writtenMillis_lt (d : Duration) : writtenMillis d < wordBound :=
  Nat.mod_lt _ (by decide)

theorem writtenMillis_writtenTimeout (d : Duration) :
    writtenMillis (writtenTimeout d) = writtenMillis d := by
  rw [writtenMillis, writtenTimeout, Duration.toMillis_ofMillis]
  exact Nat.mod_eq_of_lt (writtenMillis_lt d)

/-- A timeout is read back as none if and only if its whole milliseconds are a multiple of the word
bound. -/
theorem writtenTimeout_eq_zero_iff (d : Duration) :
    writtenTimeout d = 0 ↔ wordBound ∣ Duration.toMillis d := by
  have hmilli : Duration.millisecond ≠ 0 := by decide
  rw [writtenTimeout, Duration.ofMillis, Nat.dvd_iff_mod_eq_zero]
  exact Nat.mul_eq_zero.trans (or_iff_left hmilli)

/-- Settings as they are read back: with their timeouts as they are written. -/
def asWritten (settings : Settings) : Settings :=
  { settings with
    messageTimeout := writtenTimeout settings.messageTimeout
    closeTimeout := writtenTimeout settings.closeTimeout }

theorem form_limit {limit : Option Nat} (h : ∀ n ∈ limit, n < wordBound) :
    (Shape.optional (.number wordBound)).Form (.ofNumber? limit) (.ofNumber? limit) := by
  cases limit with
  | none => exact .inl ⟨rfl, rfl⟩
  | some n => exact .inr (form_number (h n rfl))

theorem Fits.form_toValue {settings : Settings} (h : settings.Fits) :
    shape.Form settings.toValue settings.toValue :=
  form_object <| .cons _ (form_limit h.messageMaxBytes) <|
    .cons _ (form_number (writtenMillis_lt _)) <| .cons _ (form_number (writtenMillis_lt _)) <|
    .cons _ (form_number h.queuedMaxSpans) <| .cons _ (form_limit h.queuedMaxBytes) .nil

theorem distinct_shape : shape.Distinct := by
  simp [shape, Shape.Distinct, FieldsDistinct]

theorem ofValue?_toValue (settings : Settings) :
    ofValue? settings.toValue = some settings.asWritten := by
  have hlimit : ∀ limit : Option Nat,
      (Value.ofNumber? limit).optional? Value.number? = some limit :=
    optional?_map (fun _ => rfl) fun _ => Value.noConfusion
  simp only [ofValue?, toValue, fieldOr, Value.get?, List.lookup_cons, String.reduceBEq,
    Option.bind_eq_bind, Option.bind_some, hlimit]
  rfl

/-- What is written of settings is read back with the timeouts as they are written. -/
theorem Fits.parse_write {settings : Settings} (h : settings.Fits) :
    written.parse (written.write settings) = .ok settings.asWritten :=
  Written.parse_eq (Shape.parse_render distinct_shape h.form_toValue) (ofValue?_toValue settings)

theorem write_asWritten (settings : Settings) :
    written.write settings.asWritten = written.write settings := by
  simp only [Written.write, written, toValue, asWritten, writtenMillis_writtenTimeout]

theorem background_eq_true_iff {settings : Settings} :
    settings.background = true ↔ settings.messageTimeout ≠ 0 := decide_eq_true_iff

/-- Background sending is kept in the text unless it is on and the whole milliseconds of the
timeout are a multiple of the word bound. -/
theorem background_asWritten_iff (settings : Settings) :
    settings.asWritten.background = settings.background ↔
      settings.messageTimeout = 0 ∨ ¬ wordBound ∣ Duration.toMillis settings.messageTimeout := by
  have hback : settings.asWritten.messageTimeout = 0 ↔
      wordBound ∣ Duration.toMillis settings.messageTimeout := writtenTimeout_eq_zero_iff _
  rw [Bool.eq_iff_iff, background_eq_true_iff, background_eq_true_iff, ne_eq, hback]
  by_cases hzero : settings.messageTimeout = 0
  · -- no time at all has no milliseconds
    have hdvd : wordBound ∣ Duration.toMillis 0 := Nat.dvd_zero wordBound
    simp [hzero, hdvd]
  · simp [hzero]

/-- However settings are made, what is written of them is read again: with the same limits, the same
answer to whether they are in order, and the same text when it is written once more. Background
sending is on in them if and only if it was on before, but for a timeout that is not zero and of
which the whole milliseconds are a multiple of the word bound: it is written as zero. -/
theorem kept_in_text {settings : Settings} (h : settings.Made) :
    ∃ back, written.parse (written.write settings) = .ok back
      ∧ back.messageMaxBytes = settings.messageMaxBytes
      ∧ back.queuedMaxSpans = settings.queuedMaxSpans
      ∧ back.queuedMaxBytes = settings.queuedMaxBytes
      ∧ back.validate = settings.validate
      ∧ written.write back = written.write settings
      ∧ (back.background = settings.background ↔
          settings.messageTimeout = 0
            ∨ ¬ wordBound ∣ Duration.toMillis settings.messageTimeout) :=
  ⟨settings.asWritten, h.fits.parse_write, rfl, rfl, rfl, rfl, settings.write_asWritten,
    settings.background_asWritten_iff⟩

/-- Settings from a text, changed to the largest message limit, no room in the queue, and a timeout
just above what a word of milliseconds can hold. -/
def tuned : Settings :=
  let start : Settings := { messageTimeout := Duration.ofMillis 250, queuedMaxBytes := none }
  ((start.apply (.messageMaxBytes 18446744073709551615)).apply (.queuedMaxSpans 0)).apply
    (.messageTimeout (Duration.ofSeconds 18446744073709551 617000001))

/-- The tuned settings are refused before and after, and send in the background before and after. -/
theorem tuned_kept_in_text :
    tuned.Made
      ∧ ∃ back, written.parse (written.write tuned) = .ok back
        ∧ back.messageMaxBytes = some 18446744073709551615
        ∧ back.queuedMaxSpans = 0
        ∧ back.queuedMaxBytes = none
        ∧ back.validate = .error (.invalidConfig "queued_max_spans must be greater than zero")
        ∧ written.write back = written.write tuned
        ∧ back.background = true := by
  have hstart : written.parse
      "\x7b\"message_timeout_ms\": 250, \"queued_max_bytes\": null\x7d" =
        .ok { messageTimeout := Duration.ofMillis 250, queuedMaxBytes := none } := by
    decide +kernel
  have hbytes : (Change.messageMaxBytes 18446744073709551615).Fits := Nat.lt_succ_self _
  have hspans : (Change.queuedMaxSpans 0).Fits := Nat.zero_lt_succ _
  have htimeout :
      (Change.messageTimeout (Duration.ofSeconds 18446744073709551 617000001)).Fits := trivial
  have hmade : tuned.Made := .apply (.apply (.apply (.read hstart) hbytes) hspans) htimeout
  obtain ⟨back, hparse, hmessage, hspans, hbytes, hvalid, hwrite, hmode⟩ := kept_in_text hmade
  refine ⟨hmade, back, hparse, hmessage, hspans, hbytes, hvalid.trans (by decide), hwrite, ?_⟩
  exact (hmode.2 (.inr (by decide))).trans (by decide)

/-- Settings with a timeout. -/
def withTimeout (timeout : Duration) : Settings := apply {} (.messageTimeout timeout)

/-- With a timeout of a nanosecond, or of as many milliseconds as the word bound, settings send in
the background, and what is read of their text does not. -/
theorem timeouts_lost_in_text :
    ((withTimeout (Duration.ofSeconds 0 1)).Made
      ∧ (withTimeout (Duration.ofSeconds 0 1)).background = true
      ∧ ∃ back, written.parse (written.write (withTimeout (Duration.ofSeconds 0 1))) = .ok back
          ∧ back.background = false)
    ∧ (withTimeout (Duration.ofSeconds 18446744073709551 616000000)).Made
      ∧ (withTimeout (Duration.ofSeconds 18446744073709551 616000000)).background = true
      ∧ ∃ back, written.parse (written.write
            (withTimeout (Duration.ofSeconds 18446744073709551 616000000))) = .ok back
          ∧ back.background = false := by
  have hmade : ∀ timeout, (withTimeout timeout).Made := fun timeout => .apply .usual trivial
  exact ⟨⟨hmade _, by decide, _, (hmade _).fits.parse_write, by decide⟩,
    hmade _, by decide, _, (hmade _).fits.parse_write, by decide⟩

end Settings

end SpanCourier
