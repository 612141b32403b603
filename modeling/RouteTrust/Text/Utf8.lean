namespace RouteTrust.Text

/-- The UTF-8 bytes of a text. -/
def utf8 (text : String) : List UInt8 := text.toByteArray.data.toList

/-- The text whose UTF-8 bytes are given, if they are well formed. -/
def ofUtf8? (bytes : List UInt8) : Option String := String.fromUTF8? ⟨bytes.toArray⟩

@[simp] theorem utf8_empty : utf8 "" = [] := rfl

theorem ofUtf8?_utf8 (text : String) : ofUtf8? (utf8 text) = some text := by
  simp [ofUtf8?, utf8, String.fromUTF8?, String.fromUTF8, text.isValidUTF8]

theorem utf8_injective {a b : String} (same : utf8 a = utf8 b) : a = b := by
  have := congrArg ofUtf8? same
  simpa [ofUtf8?_utf8] using this

end RouteTrust.Text
