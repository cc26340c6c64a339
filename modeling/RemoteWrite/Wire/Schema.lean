import RemoteWrite.Text.Bytes
import RemoteWrite.Wire.Scalar

/-!
# Messages as lists of fields

A schema lists the fields of a message type. Reading starts from the empty message and merges field
after field, in the order of the bytes, until the announced length is used up; an unknown field
number is skipped. Writing puts the fields in the order of the list.

Nested values are bounded by the end of the whole input, not by the message around them, so an
element may run past its message; that is noticed when the message finds itself past its own end.
-/

namespace RemoteWrite.Wire

/-- How deep messages and groups may nest. -/
def depthLimit : Nat := 100

variable {α β : Type}

/-- Repeats `step` until no more than `limit` bytes are left. A step takes at least one byte, so
`room` of them can be no more than the bytes before the limit. -/
def repeatUntil (step : α → Input → Except Fault (α × Input)) (limit : Nat) :
    (room : Nat) → α → Input → Except Fault (α × Input)
  | 0, a, s => if s.size = limit then .ok (a, s) else .error (.of .lengthExceeded)
  | room + 1, a, s =>
    if limit < s.size then
      match step a s with
      | .error e => .error e
      | .ok (a, rest) => repeatUntil step limit room a rest
    else if s.size = limit then .ok (a, s)
    else .error (.of .lengthExceeded)

/-- Reads a length and repeats `step` over so many bytes. -/
def readDelimited (step : α → Input → Except Fault (α × Input)) (a : α) (s : Input) :
    Except Fault (α × Input) := do
  let (length, rest) ← readVarint s
  if rest.size < length.toNat then throw (.of .underflow)
  repeatUntil step (rest.size - length.toNat) length.toNat a rest

def writeDelimited (bytes : Bytes) : Bytes := writeVarint bytes.length ++ bytes

structure Field (α : Type) where
  number : Nat
  name : String
  /-- Merges one occurrence of the field, its key already read. -/
  merge : (depth : Nat) → WireType → α → Input → Except Fault (α × Input)
  write : α → Bytes

structure Schema (α : Type) where
  name : String
  empty : α
  fields : List (Field α)

namespace Schema
variable (m : Schema α)

/-- Merges one field, whichever it is. Only a known field adds itself to the path of a fault. -/
def mergeField (depth : Nat) (a : α) (s : Input) : Except Fault (α × Input) := do
  let (key, rest) ← readKey s
  match m.fields.find? (·.number = key.number) with
  | some f =>
    match f.merge depth key.wireType a rest with
    | .error e => throw (e.within m.name f.name)
    | .ok r => return r
  | none => return (a, ← skip depth key rest)

def merge : (depth : Nat) → WireType → α → Input → Except Fault (α × Input)
  | depth, t, a, s => do
    checkWireType .delimited t
    match depth with
    | 0 => throw (.of .depth)
    | depth + 1 => readDelimited (m.mergeField depth) a s

def read (bytes : Bytes) : Except Fault α := do
  let s := Input.ofBytes bytes
  return (← repeatUntil (m.mergeField depthLimit) 0 s.size m.empty s).1

def write (a : α) : Bytes := m.fields.flatMap (·.write a)

end Schema

/-- Reads bytes under their length as text. -/
def readText (t : WireType) (s : Input) : Except Fault (String × Input) := do
  checkWireType .delimited t
  let (length, rest) ← readVarint s
  match rest.take? length.toNat with
  | none => throw (.of .underflow)
  | some (bytes, rest) =>
    match Text.ofBytes? bytes with
    | none => throw (.of .notText)
    | some text => return (text, rest)

namespace Field

/-- One number; the last occurrence counts. -/
def scalar (number : Nat) (name : String) (c : Scalar β) (get : α → β) (set : β → α → α) :
    Field α where
  number := number
  name := name
  merge _ t a s := do
    checkWireType c.wireType t
    let (b, rest) ← c.read s
    return (set b a, rest)
  write a := if c.omits (get a) then [] else writeKey number c.wireType ++ c.write (get a)

/-- One case of a choice between numbers; written whenever it is the chosen one. -/
def choice (number : Nat) (name : String) (c : Scalar β) (get : α → Option β) (set : β → α → α) :
    Field α where
  number := number
  name := name
  merge _ t a s := do
    checkWireType c.wireType t
    let (b, rest) ← c.read s
    return (set b a, rest)
  write a :=
    match get a with
    | none => []
    | some b => writeKey number c.wireType ++ c.write b

/-- A list of numbers, read one to a field or many to a field, and written in one field. -/
def packed (number : Nat) (name : String) (c : Scalar β) (get : α → List β)
    (set : List β → α → α) : Field α where
  number := number
  name := name
  merge _ t a s := do
    if t = .delimited then
      let (bs, rest) ← readDelimited
        (fun bs s => do let (b, rest) ← c.read s; return (b :: bs, rest)) [] s
      return (set (get a ++ bs.reverse) a, rest)
    else
      checkWireType c.wireType t
      let (b, rest) ← c.read s
      return (set (get a ++ [b]) a, rest)
  write a :=
    if (get a).isEmpty then []
    else writeKey number .delimited ++ writeDelimited ((get a).flatMap c.write)

/-- One text; the empty one is not written. -/
def text (number : Nat) (name : String) (get : α → String) (set : String → α → α) : Field α where
  number := number
  name := name
  merge _ t a s := do
    let (b, rest) ← readText t s
    return (set b a, rest)
  write a :=
    if get a = "" then [] else writeKey number .delimited ++ writeDelimited (Text.bytes (get a))

/-- A list of texts, each in a field of its own. -/
def texts (number : Nat) (name : String) (get : α → List String) (set : List String → α → α) :
    Field α where
  number := number
  name := name
  merge _ t a s := do
    let (b, rest) ← readText t s
    return (set (get a ++ [b]) a, rest)
  write a :=
    (get a).flatMap fun b => writeKey number .delimited ++ writeDelimited (Text.bytes b)

/-- A list of messages, each in a field of its own. -/
def messages (number : Nat) (name : String) (m : Schema β) (get : α → List β)
    (set : List β → α → α) : Field α where
  number := number
  name := name
  merge depth t a s := do
    let (b, rest) ← m.merge depth t m.empty s
    return (set (get a ++ [b]) a, rest)
  write a := (get a).flatMap fun b => writeKey number .delimited ++ writeDelimited (m.write b)

/-- A message that may be absent; occurrences are merged. -/
def message? (number : Nat) (name : String) (m : Schema β) (get : α → Option β)
    (set : Option β → α → α) : Field α where
  number := number
  name := name
  merge depth t a s := do
    let (b, rest) ← m.merge depth t ((get a).getD m.empty) s
    return (set (some b) a, rest)
  write a :=
    match get a with
    | none => []
    | some b => writeKey number .delimited ++ writeDelimited (m.write b)

end Field

end RemoteWrite.Wire
