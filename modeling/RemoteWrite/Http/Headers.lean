import RemoteWrite.Text.Blank
import RemoteWrite.Text.Bytes

/-!
# HTTP headers

Headers are names with values, in the order in which they were appended. Names are kept in small
letters; the value of a name is its first. A value is bytes, and it can be read as text only if all
of them are visible ASCII, spaces or tabs.
-/

namespace RemoteWrite

abbrev HeaderValue := List UInt8

structure Headers where
  entries : List (String × HeaderValue)
  deriving DecidableEq, Inhabited

namespace Headers

def empty : Headers := ⟨[]⟩

/-- The name under which headers are kept. -/
def canonicalName (name : String) : String := String.ofList (Text.lower name.toList)

variable (h : Headers)

def append (name : String) (value : HeaderValue) : Headers :=
  ⟨h.entries ++ [(canonicalName name, value)]⟩

def get? (name : String) : Option HeaderValue :=
  (h.entries.find? (·.1 = canonicalName name)).map (·.2)

def erase (name : String) : Headers := ⟨h.entries.filter (·.1 ≠ canonicalName name)⟩

def insert (name : String) (value : HeaderValue) : Headers := (h.erase name).append name value

/-- Takes over the entries of `other`, whose names lose their values here. -/
def override (other : Headers) : Headers :=
  ⟨h.entries.filter (fun (name, _) => other.entries.all (·.1 ≠ name)) ++ other.entries⟩

def isReadable (b : UInt8) : Bool := (0x20 ≤ b && b < 0x7f) || b == 0x09

/-- The value as text, if it can be read as text. -/
def readValue? (value : HeaderValue) : Option String :=
  if value.all isReadable then some (String.ofList (value.map fun b => Char.ofNat b.toNat))
  else none

def text? (name : String) : Option String := (h.get? name).bind readValue?

/-- Bytes that a value may hold: no controls but the tab. -/
def isValueByte (b : UInt8) : Bool := (0x20 ≤ b && b != 0x7f) || b == 0x09

/-- The value for a text, if its bytes may stand in a header. -/
def value? (text : String) : Option HeaderValue :=
  let bytes := Text.bytes text
  if bytes.all isValueByte then some bytes else none

def isTokenChar (c : Char) : Bool :=
  c.isAlphanum
    || c ∈ ['!', '#', '$', '%', '&', '\x27', '*', '+', '-', '.', '^', '_', '\x60', '|', '~']

def isName (name : String) : Bool :=
  let cs := name.toList
  !cs.isEmpty && cs.length < UInt16.size && cs.all isTokenChar

end Headers

end RemoteWrite
