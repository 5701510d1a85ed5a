/-!
# Text as bytes

The UTF-8 bytes of a text, and the text that bytes stand for when they are the
UTF-8 form of one.
-/

namespace ApiIntake.Text

/-- The UTF-8 bytes of a text. -/
def utf8 (s : String) : List UInt8 := s.toList.flatMap String.utf8EncodeChar

/-- The text with the given UTF-8 bytes. -/
def ofUtf8? (bytes : List UInt8) : Option String := String.fromUTF8? ⟨bytes.toArray⟩

end ApiIntake.Text
