import RemoteWrite.Wire.Fault
import RemoteWrite.Wire.Input

/-!
# Variable-length numbers

Seven bits to a byte, low ones first; the top bit of a byte says that another follows. A number has
64 bits, so a varint has at most ten bytes and its tenth byte is 0 or 1. Longer spellings than the
shortest are read too.
-/

namespace RemoteWrite.Wire

/-- The shortest spelling of `n`. -/
def writeVarint (n : Nat) : Bytes :=
  if n < 128 then [UInt8.ofNat n]
  else UInt8.ofNat (n % 128 + 128) :: writeVarint (n / 128)

/-- A varint of at most `room` bytes; the last of them may not add more than one bit. -/
def readVarintWithin : (room : Nat) → Input → Except Fault (Nat × Input)
  | 0, _ => .error (.of .varint)
  | room + 1, s =>
    match s.next? with
    | none => .error (.of .varint)
    | some (b, rest) =>
      if b < 128 then
        if room = 0 ∧ 1 < b then .error (.of .varint) else .ok (b.toNat, rest)
      else
        match readVarintWithin room rest with
        | .error e => .error e
        | .ok (high, rest) => .ok (b.toNat - 128 + 128 * high, rest)

def readVarint (s : Input) : Except Fault (UInt64 × Input) :=
  match readVarintWithin 10 s with
  | .error e => .error e
  | .ok (n, rest) => .ok (UInt64.ofNat n, rest)

end RemoteWrite.Wire
