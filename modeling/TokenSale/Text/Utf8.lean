/-!
# TokenSale.Text.Utf8

Texts as bytes.

* `utf8` — the bytes of a text;
* `ofUtf8?` — the text that bytes spell, if they spell one.
-/

namespace TokenSale.Text

/-- The bytes of a text. -/
def utf8 (s : String) : List UInt8 := s.toUTF8.data.toList

/-- The text that bytes spell, if they spell one. -/
def ofUtf8? (bytes : List UInt8) : Option String := String.fromUTF8? ⟨bytes.toArray⟩

/-- A text is read back from its bytes. -/
theorem ofUtf8?_utf8 (s : String) : ofUtf8? (utf8 s) = some s := by
  have h : (⟨(utf8 s).toArray⟩ : ByteArray) = s.toByteArray := by simp [utf8]
  simp only [ofUtf8?, h, String.fromUTF8?, dif_pos s.isValidUTF8]
  rfl

end TokenSale.Text
