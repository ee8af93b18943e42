/-! Texts as the bytes of their UTF-8 form. -/

namespace MessageBroker.Text

def toUtf8 (text : String) : List UInt8 :=
  text.toByteArray.data.toList

def ofUtf8? (bytes : List UInt8) : Option String :=
  String.fromUTF8? ⟨bytes.toArray⟩

@[simp] theorem ofUtf8?_toUtf8 (text : String) :
    ofUtf8? (toUtf8 text) = some text := by
  have hbytes : (⟨(toUtf8 text).toArray⟩ : ByteArray) = text.toByteArray := by
    simp [toUtf8]
  simp only [ofUtf8?, hbytes, String.fromUTF8?]
  exact dif_pos text.isValidUTF8

end MessageBroker.Text
