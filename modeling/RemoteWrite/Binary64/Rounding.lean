import RemoteWrite.Binary64

/-!
# Doubles and fractions

A finite double is a fraction, and every fraction has a nearest double; of two that are as near the
one with the even last bit is taken. Both directions are exact, on natural numbers.
-/

namespace RemoteWrite.Binary64

/-- The quotient rounded to the nearest number, of two to the even one. -/
def divRoundEven (num den : Nat) : Nat :=
  let q := num / den
  let r := num % den
  if 2 * r < den then q
  else if den < 2 * r then q + 1
  else q + q % 2

/-- The quotient rounded to the nearest number, of two to the greater one. -/
def divRoundUp (num den : Nat) : Nat := (2 * num + den) / (2 * den)

/-- `num / den / 2 ^ k`, as a fraction. -/
def scale (num den : Nat) (k : Int) : Nat × Nat :=
  if 0 ≤ k then (num, den <<< k.toNat) else (num <<< (-k).toNat, den)

/-- The greatest `k` with `2 ^ k ≤ num / den`, for positive numbers. -/
def floorLog2 (num den : Nat) : Int :=
  let k : Int := num.log2 - den.log2
  let (n, d) := scale num den k
  if d ≤ n then k else k - 1

/-- The nearest double that is not negative. The unit of the last place is at least `2 ^ -1074`; the
bits of a double are its number of units, shifted by what its binade has more than the lowest. -/
def ofRatio (num den : Nat) : Binary64 :=
  if num = 0 then zero
  else
    let unit : Int := max (floorLog2 num den - 52) (-1074)
    let (n, d) := scale num den unit
    let bits := ((unit + 1074).toNat <<< 52) + divRoundEven n d
    if infinity.magnitude ≤ bits then infinity else ⟨UInt64.ofNat bits⟩

def ofNat (n : Nat) : Binary64 := ofRatio n 1

def toRatio (x : Binary64) : Nat × Nat :=
  let exponent : Nat := x.magnitude >>> 52
  let fraction := x.magnitude % (1 <<< 52)
  if exponent = 0 then (fraction, 1 <<< 1074)
  else scale ((1 <<< 52) + fraction) 1 (1075 - (exponent : Int))

def isFinite (x : Binary64) : Bool := x.magnitude < infinity.magnitude

def mulNat (x : Binary64) (k : Nat) : Binary64 :=
  let (n, d) := x.toRatio
  let product := ofRatio (n * k) d
  if x.isNegative then product.neg else product

/-- The nearest whole number, of two the one farther from zero, within 64 bits; for numbers. -/
def roundInt64 (x : Binary64) : Int64 :=
  if x.isFinite then
    let (n, d) := x.toRatio
    let rounded : Int := divRoundUp n d
    let signed := if x.isNegative then -rounded else rounded
    Int64.ofInt (max Int64.minValue.toInt (min Int64.maxValue.toInt signed))
  else if x.isNegative then Int64.minValue
  else Int64.maxValue

end RemoteWrite.Binary64
