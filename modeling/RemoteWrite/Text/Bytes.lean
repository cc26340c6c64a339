/-!
# Texts as bytes

Texts are compared by their UTF-8 bytes, and they stand in messages as those bytes.
-/

namespace RemoteWrite.Text

def bytes (s : String) : List UInt8 := s.toByteArray.data.toList

/-- The text that some bytes spell, if they are UTF-8. -/
def ofBytes? (bytes : List UInt8) : Option String := String.fromUTF8? bytes.toByteArray

def le (a b : String) : Bool := decide (bytes a ≤ bytes b)

def lt (a b : String) : Bool := decide (bytes a < bytes b)

/-- Texts in ascending byte order; equal ones keep their places. -/
def sort (texts : List String) : List String := texts.mergeSort le

end RemoteWrite.Text
