import RemoteWrite.Http.Counts
import RemoteWrite.Json.Value
import RemoteWrite.Version

/-!
# Records in JSON

A record is an object with a member for each field, where members of other names are passed over
and a field may not be given twice; or it is an array of its fields in their order. Numbers are
plain whole ones, and texts are Unicode.
-/

namespace RemoteWrite.JsonValue

/-- The text of a string, where two units may make one character. -/
def decodeUnits : List JsonUnit → Option (List Char)
  | [] => some []
  | .char c :: rest => (decodeUnits rest).map (c :: ·)
  | .unit n :: rest =>
    if n < 0xd800 ∨ 0xdfff < n then (decodeUnits rest).map (Char.ofNat n :: ·)
    else
      match rest with
      | .unit m :: rest =>
        if n < 0xdc00 ∧ 0xdc00 ≤ m ∧ m ≤ 0xdfff then
          (decodeUnits rest).map (Char.ofNat (0x10000 + (n - 0xd800) * 0x400 + (m - 0xdc00)) :: ·)
        else none
      | _ => none

def text? : JsonValue → Option String
  | string units => (decodeUnits units).map String.ofList
  | _ => none

/-- A whole number below `bound`, spelled with digits alone. -/
def nat? (bound : Nat) : JsonValue → Option Nat
  | number literal => (Text.readNat? literal).filter (· < bound)
  | _ => none

def uint64? (v : JsonValue) : Option UInt64 := (v.nat? UInt64.size).map UInt64.ofNat

def list? {α : Type} (f : JsonValue → Option α) : JsonValue → Option (List α)
  | array items => items.mapM f
  | _ => none

/-- The members with their names as text. -/
def namedMembers (members : List (List JsonUnit × JsonValue)) :
    Option (List (String × JsonValue)) :=
  members.mapM fun (units, value) => (decodeUnits units).map fun name => (String.ofList name, value)

/-- The value of the field of a record, absent or given once. -/
def member? (members : List (String × JsonValue)) (name : String) : Option (Option JsonValue) :=
  match members.filter (·.1 = name) with
  | [] => some none
  | [(_, value)] => some (some value)
  | _ => none

/-- The fields of a record that has fields of the given names, in their order. -/
def fields? (names : List String) : JsonValue → Option (List (Option JsonValue))
  | object members =>
    match namedMembers members with
    | some members => names.mapM (member? members)
    | none => none
  | array items =>
    if items.length ≤ names.length then
      some (items.map some ++ List.replicate (names.length - items.length) none)
    else none
  | _ => none

def required? {α : Type} (f : JsonValue → Option α) (field : Option JsonValue) : Option α :=
  field.bind f

/-- A field that has a value if it is not given. -/
def withDefault? {α : Type} (f : JsonValue → Option α) (absent : α) :
    Option JsonValue → Option α
  | none => some absent
  | some v => f v

def optional? {α : Type} (f : JsonValue → Option α) : JsonValue → Option (Option α)
  | null => some none
  | v => (f v).map some

def version? : JsonValue → Option Version
  | string units => (string units).text?.bind Version.ofName?
  | object [(units, null)] => (string units).text?.bind Version.ofName?
  | _ => none

def counts? (v : JsonValue) : Option Counts :=
  match v.fields? ["samples", "histograms", "exemplars"] with
  | some [samples, histograms, exemplars] => do
    return ⟨← required? uint64? samples, ← required? uint64? histograms,
      ← required? uint64? exemplars⟩
  | _ => none

def textPair? : JsonValue → Option (String × String)
  | array [a, b] => do return (← a.text?, ← b.text?)
  | _ => none

end RemoteWrite.JsonValue
