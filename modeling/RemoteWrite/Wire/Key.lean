import RemoteWrite.Wire.Varint

/-!
# Field keys and fields that are not known

A key is a varint of field number and wire type. A field that the reader does not know is skipped:
its wire type tells how far it reaches. Groups are fields between a start key and an end key of one
number, and they nest, so skipping is bounded by the depth that is left.
-/

namespace RemoteWrite.Wire

structure Key where
  number : Nat
  wireType : WireType
  deriving DecidableEq

def writeKey (number : Nat) (t : WireType) : Bytes := writeVarint (8 * number + t.number)

/-- Refuses a key over 32 bits first, then an unknown wire type, then field number 0. -/
def readKey (s : Input) : Except Fault (Key × Input) := do
  let (value, rest) ← readVarint s
  if 0xffffffff < value then throw (.of (.key value))
  match WireType.ofNumber? (value.toNat % 8) with
  | none => throw (.of (.wireTypeNumber (value.toNat % 8)))
  | some t =>
    if value.toNat / 8 = 0 then throw (.of .fieldNumberZero)
    return (⟨value.toNat / 8, t⟩, rest)

def skipBytes (n : Nat) (s : Input) : Except Fault Input :=
  match s.take? n with
  | none => .error (.of .underflow)
  | some (_, rest) => .ok rest

/-- Skips the fields of group `number` up to its end key. Each field takes a byte, so `room` of
them can be no more than the bytes that are left. -/
def skipGroup (skip : Key → Input → Except Fault Input) (number : Nat) :
    (room : Nat) → Input → Except Fault Input
  | 0, _ => .error (.of .varint)
  | room + 1, s => do
    let (key, rest) ← readKey s
    if key.wireType = .groupEnd then
      if key.number = number then return rest else throw (.of .groupEnd)
    else
      skipGroup skip number room (← skip key rest)

/-- Skips the value of one field at most `depth - 1` groups deep. -/
def skip : (depth : Nat) → Key → Input → Except Fault Input
  | 0, _, _ => .error (.of .depth)
  | depth + 1, key, s =>
    match key.wireType with
    | .varint => do return (← readVarint s).2
    | .fixed32 => skipBytes 4 s
    | .fixed64 => skipBytes 8 s
    | .delimited => do
      let (n, rest) ← readVarint s
      skipBytes n.toNat rest
    | .groupStart => skipGroup (skip depth) key.number s.size s
    | .groupEnd => .error (.of .groupEnd)

end RemoteWrite.Wire
