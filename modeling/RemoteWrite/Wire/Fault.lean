/-!
# Why bytes are not a message

A fault is a reason and the fields it lies in, innermost first. Reasons are told apart by what the
reader found; the wording of all of them is `Reason.message`.
-/

namespace RemoteWrite.Wire

/-- How the bytes of a field's value are delimited. -/
inductive WireType where
  | varint | fixed64 | delimited | groupStart | groupEnd | fixed32
  deriving DecidableEq, Inhabited

namespace WireType

def number : WireType → Nat
  | varint => 0
  | fixed64 => 1
  | delimited => 2
  | groupStart => 3
  | groupEnd => 4
  | fixed32 => 5

def ofNumber? : Nat → Option WireType
  | 0 => some varint
  | 1 => some fixed64
  | 2 => some delimited
  | 3 => some groupStart
  | 4 => some groupEnd
  | 5 => some fixed32
  | _ => none

def name : WireType → String
  | varint => "Varint"
  | fixed64 => "SixtyFourBit"
  | delimited => "LengthDelimited"
  | groupStart => "StartGroup"
  | groupEnd => "EndGroup"
  | fixed32 => "ThirtyTwoBit"

theorem ofNumber?_number (t : WireType) : ofNumber? t.number = some t := by
  cases t <;> rfl

theorem number_lt (t : WireType) : t.number < 8 := by
  cases t <;> decide

end WireType

inductive Reason where
  /-- The varint does not end within ten bytes or within the input, or needs more than 64 bits. -/
  | varint
  /-- A key of more than 32 bits. -/
  | key (value : UInt64)
  | wireTypeNumber (value : Nat)
  | fieldNumberZero
  | wireType (actual expected : WireType)
  /-- The value runs past the end of the whole input. -/
  | underflow
  /-- The last element ended past the announced length. -/
  | lengthExceeded
  | notText
  | groupEnd
  | depth
  deriving DecidableEq

def Reason.message : Reason → String
  | varint => "invalid varint"
  | key value => s!"invalid key value: {value}"
  | wireTypeNumber value => s!"invalid wire type value: {value}"
  | fieldNumberZero => "invalid tag value: 0"
  | wireType actual expected =>
    s!"invalid wire type: {actual.name} (expected {expected.name})"
  | underflow => "buffer underflow"
  | lengthExceeded => "delimited length exceeded"
  | notText => "invalid string value: data is not UTF-8 encoded"
  | groupEnd => "unexpected end group tag"
  | depth => "recursion limit reached"

structure Fault where
  /-- Message and field names, innermost first. -/
  path : List (String × String)
  reason : Reason
  deriving DecidableEq

namespace Fault

def of (reason : Reason) : Fault := ⟨[], reason⟩

def within (message field : String) (f : Fault) : Fault :=
  { f with path := f.path ++ [(message, field)] }

def message (f : Fault) : String :=
  "failed to decode Protobuf message: "
    ++ String.join (f.path.map fun (message, field) => message ++ "." ++ field ++ ": ")
    ++ f.reason.message

end Fault

end RemoteWrite.Wire
