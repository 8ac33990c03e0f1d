/-!
# Texts as bytes

Files hold bytes. A text is written as its bytes in UTF-8 and read back from them;
bytes that are no UTF-8 are no text.
-/

namespace TestScaffold.Text

/-- The bytes of a text. -/
def encode (text : String) : List UInt8 :=
  text.toUTF8.data.toList

/-- The text of some bytes, if they are one. -/
def decode? (bytes : List UInt8) : Option String :=
  String.fromUTF8? ⟨bytes.toArray⟩

/-! ## Small facts -/

/-- **Reading loses nothing**: the bytes of a text that was read are those it was
read from. -/
theorem encode_of_decode? {bytes : List UInt8} {text : String}
    (h : decode? bytes = some text) : encode text = bytes := by
  unfold decode? String.fromUTF8? at h
  split at h
  · cases h
    simp [encode, String.fromUTF8]
  · simp at h

/-- **Writing loses nothing**: the bytes of a text are read as that text. -/
theorem decode?_encode (text : String) : decode? (encode text) = some text := by
  have hbytes : (⟨text.toUTF8.data.toList.toArray⟩ : ByteArray) = text.toUTF8 := by simp
  rw [decode?, encode, hbytes, String.fromUTF8?, String.toUTF8_eq_toByteArray,
    dif_pos text.isValidUTF8]
  rfl

@[simp]
theorem encode_append (a b : String) : encode (a ++ b) = encode a ++ encode b := by
  simp [encode]

end TestScaffold.Text
