import RemoteWrite.Binary64
import RemoteWrite.Wire.Key

/-!
# Scalar encodings

How a number is written as the value of a field. Numbers of 32 bits are cut from the 64 bits of a
varint; signed ones come either as two's complement, where a negative number takes ten bytes, or
folded, where 0, -1, 1, -2 are 0, 1, 2, 3.
-/

namespace RemoteWrite.Wire

structure Scalar (α : Type) where
  wireType : WireType
  read : Input → Except Fault (α × Input)
  write : α → Bytes
  /-- The values that a field holding one number does not write. -/
  omits : α → Bool

/-- Refuses a value that is not delimited as expected. -/
def checkWireType (expected actual : WireType) : Except Fault Unit :=
  if actual = expected then .ok () else .error (.of (.wireType actual expected))

/-- The number whose lowest byte comes first. -/
def ofLittleEndian : Bytes → Nat
  | [] => 0
  | b :: bs => b.toNat + 256 * ofLittleEndian bs

/-- `count` bytes of `n`, the lowest first. -/
def littleEndian : (count : Nat) → (n : Nat) → Bytes
  | 0, _ => []
  | count + 1, n => UInt8.ofNat (n % 256) :: littleEndian count (n / 256)

/-- Folds a signed number into a natural one. -/
def fold (i : Int) : Nat := if 0 ≤ i then (2 * i).toNat else (-2 * i - 1).toNat

def unfold (n : Nat) : Int := if n % 2 = 0 then (n / 2 : Nat) else -((n / 2 + 1 : Nat) : Int)

namespace Scalar

/-- A number carried by a varint. -/
def ofVarint {α : Type} (get : UInt64 → α) (put : α → UInt64) (omits : α → Bool) : Scalar α where
  wireType := .varint
  read s := do
    let (v, rest) ← readVarint s
    return (get v, rest)
  write a := writeVarint (put a).toNat
  omits := omits

def uint64 : Scalar UInt64 := ofVarint id id (· == 0)

def uint32 : Scalar UInt32 := ofVarint UInt64.toUInt32 UInt32.toUInt64 (· == 0)

def int64 : Scalar Int64 := ofVarint UInt64.toInt64 Int64.toUInt64 (· == 0)

/-- Also the encoding of enumerations, unknown numbers included. -/
def int32 : Scalar Int32 :=
  ofVarint (fun v => v.toUInt32.toInt32) (fun i => i.toInt64.toUInt64) (· == 0)

def sint64 : Scalar Int64 :=
  ofVarint (fun v => Int64.ofInt (unfold v.toNat)) (fun i => UInt64.ofNat (fold i.toInt)) (· == 0)

/-- The varint is cut to 32 bits before it is unfolded. -/
def sint32 : Scalar Int32 :=
  ofVarint (fun v => Int32.ofInt (unfold v.toUInt32.toNat))
    (fun i => UInt64.ofNat (fold i.toInt)) (· == 0)

def double : Scalar Binary64 where
  wireType := .fixed64
  read s :=
    match s.take? 8 with
    | none => .error (.of .underflow)
    | some (bytes, rest) => .ok (⟨UInt64.ofNat (ofLittleEndian bytes)⟩, rest)
  write x := littleEndian 8 x.bits.toNat
  omits := Binary64.isZero

end Scalar

end RemoteWrite.Wire
