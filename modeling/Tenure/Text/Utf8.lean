/-!
# `Tenure.Text.Utf8`: texts as bytes

A file holds a list of bytes. `utf8` is the encoding of a text, `ofUtf8?` reads
it back and refuses bytes that encode no text.

* `ofUtf8?_utf8`: every text is read back from its bytes.
-/

set_option autoImplicit false

namespace Tenure.Text

/-- The bytes of a text. -/
def utf8 (s : String) : List UInt8 := s.toUTF8.data.toList

/-- The text that some bytes encode. -/
def ofUtf8? (bytes : List UInt8) : Option String := String.fromUTF8? ⟨bytes.toArray⟩

/-- Every text is read back from its bytes. -/
theorem ofUtf8?_utf8 (s : String) : ofUtf8? (utf8 s) = some s := by
  have h : (⟨(s.toUTF8.data.toList).toArray⟩ : ByteArray) = s.toUTF8 := by
    simp
  unfold ofUtf8? utf8
  rw [h]
  show (if h : s.toByteArray.IsValidUTF8 then some (String.fromUTF8 s.toByteArray h) else none)
    = some s
  rw [dif_pos s.isValidUTF8]
  rfl

end Tenure.Text
