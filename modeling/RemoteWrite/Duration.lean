/-!
# Durations

Durations are whole nanoseconds up to a greatest one, at which sums and products stop.
-/

namespace RemoteWrite

/-- The most nanoseconds of a duration: 64 bits of seconds and the nanoseconds below one more. -/
def maxNanos : Nat := (UInt64.size - 1) * 1000000000 + 999999999

structure Duration where
  nanos : Nat
  le_max : nanos ≤ maxNanos := by decide
  deriving DecidableEq

namespace Duration

instance : Inhabited Duration := ⟨⟨0, by decide⟩⟩

def ofNanos (n : Nat) : Duration := ⟨min n maxNanos, Nat.min_le_right ..⟩

def ofMillis (n : UInt64) : Duration :=
  ⟨n.toNat * 1000000, by have := n.toNat_lt_size; simp only [maxNanos]; omega⟩

def toMillis (d : Duration) : UInt64 := UInt64.ofNat (d.nanos / 1000000)

def mul (d : Duration) (k : Nat) : Duration := ofNanos (d.nanos * k)

def min (a b : Duration) : Duration := if a.nanos ≤ b.nanos then a else b

/-- A fraction's digits after the point: `width` of them for `n`, less the zeros at the end. -/
def fractionDigits (width n : Nat) : List Char :=
  let digits := Nat.toDigits 10 n
  let padded := List.replicate (width - digits.length) '0' ++ digits
  (padded.reverse.dropWhile (· = '0')).reverse

/-- `n` units of `10 ^ width` parts, in decimals. -/
def decimals (width n : Nat) (unit : String) : String :=
  let parts := Nat.pow 10 width
  let fraction := if width = 0 then [] else fractionDigits width (n % parts)
  toString (n / parts)
    ++ (if fraction.isEmpty then "" else "." ++ String.ofList fraction) ++ unit

/-- The duration in the greatest unit that it reaches, in full. -/
def text (d : Duration) : String :=
  if 1000000000 ≤ d.nanos then decimals 9 d.nanos "s"
  else if 1000000 ≤ d.nanos then decimals 6 d.nanos "ms"
  else if 1000 ≤ d.nanos then decimals 3 d.nanos "µs"
  else decimals 0 d.nanos "ns"

end Duration

end RemoteWrite
