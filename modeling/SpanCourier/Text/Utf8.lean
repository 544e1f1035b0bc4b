set_option autoImplicit false

/-! # The bytes of a text

Texts travel as UTF-8. `utf8` gives the bytes of a text, `ofUtf8?` reads them back
(`ofUtf8?_utf8`), and two texts with the same bytes are the same text (`utf8_inj`).
-/

namespace SpanCourier

/-- The UTF-8 bytes of a text. -/
def utf8 (s : String) : List UInt8 := s.toByteArray.data.toList

/-- The text that has these UTF-8 bytes, if there is one. -/
def ofUtf8? (bytes : List UInt8) : Option String := String.fromUTF8? ⟨bytes.toArray⟩

theorem utf8_length (s : String) : (utf8 s).length = s.utf8ByteSize := rfl

theorem utf8_inj {s t : String} : utf8 s = utf8 t ↔ s = t := by
  constructor
  · intro h
    apply String.toByteArray_inj.1
    exact ByteArray.ext (Array.toList_inj.1 h)
  · rintro rfl
    rfl

theorem ofUtf8?_utf8 (s : String) : ofUtf8? (utf8 s) = some s := by
  have h : (⟨(utf8 s).toArray⟩ : ByteArray) = s.toByteArray := rfl
  rw [ofUtf8?, h, String.fromUTF8?, dif_pos s.isValidUTF8]
  rfl

theorem utf8_eq_nil_iff {s : String} : utf8 s = [] ↔ s = "" := by
  rw [show ([] : List UInt8) = utf8 "" from rfl, utf8_inj]

end SpanCourier
