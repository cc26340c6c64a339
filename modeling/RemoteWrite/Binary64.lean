/-!
# Doubles as bit patterns

A value of the protocol is the 64 bits of an IEEE 754 double and travels unchanged, NaN payloads
included, so equality here is equality of bits. `isNaN` and `isZero` are the two classes that the
rules of the protocol tell apart; there are two zeros and many NaNs.
-/

namespace RemoteWrite

structure Binary64 where
  bits : UInt64
  deriving DecidableEq, Inhabited

namespace Binary64

def zero : Binary64 := ⟨0⟩
def negZero : Binary64 := ⟨0x8000000000000000⟩
def one : Binary64 := ⟨0x3ff0000000000000⟩
def infinity : Binary64 := ⟨0x7ff0000000000000⟩
def nan : Binary64 := ⟨0x7ff8000000000000⟩

/-- The bits without the sign. -/
def magnitude (x : Binary64) : Nat := x.bits.toNat % 0x8000000000000000

def isNegative (x : Binary64) : Bool := 0x8000000000000000 ≤ x.bits.toNat

def isNaN (x : Binary64) : Bool := infinity.magnitude < x.magnitude

def isZero (x : Binary64) : Bool := x.magnitude == 0

def neg (x : Binary64) : Binary64 := ⟨x.bits ^^^ 0x8000000000000000⟩

/-- A zero of either sign is read as the positive one. -/
def plusZero (x : Binary64) : Binary64 := if x.isZero then zero else x

end Binary64

end RemoteWrite
