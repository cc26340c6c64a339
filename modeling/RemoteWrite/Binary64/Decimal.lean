import RemoteWrite.Binary64.Rounding
import RemoteWrite.Text.Number

/-!
# Decimal text of doubles

A sign may come first; then a word for infinity or for no number, in any case, or digits with a
point among or beside them and an exponent. The value is the nearest double of the decimal.
-/

namespace RemoteWrite.Binary64

/-- The nearest double of `digits * 10 ^ exponent`. A decimal that is far out of range is not
computed. -/
def ofDecimal (digits : List Char) (exponent : Int) : Binary64 :=
  let significant := digits.dropWhile (· = '0')
  let order := significant.length + exponent
  if significant.isEmpty || order < -330 then zero
  else if 310 < order then infinity
  else
    let (n, d) := if 0 ≤ exponent then (Nat.pow 10 exponent.toNat, 1) else (1, Nat.pow 10 (-exponent).toNat)
    ofRatio (Text.ofDigits significant * n) d

/-- An exponent: nothing, or a letter, a sign or none, and digits. -/
def readExponent? : List Char → Option Int
  | [] => some 0
  | c :: cs =>
    if c = 'e' ∨ c = 'E' then
      match cs with
      | '-' :: ds => (Text.readNat? ds).map fun n => -(n : Int)
      | '+' :: ds => (Text.readNat? ds).map fun n => (n : Int)
      | ds => (Text.readNat? ds).map fun n => (n : Int)
    else none

/-- Digits with a point or none, at least one of them, and an exponent. -/
def readDecimal? (cs : List Char) : Option Binary64 :=
  let whole := cs.takeWhile Char.isDigit
  let (fraction, rest) := match cs.dropWhile Char.isDigit with
    | '.' :: rest => (rest.takeWhile Char.isDigit, rest.dropWhile Char.isDigit)
    | rest => ([], rest)
  if whole.isEmpty && fraction.isEmpty then none
  else (readExponent? rest).map fun e => ofDecimal (whole ++ fraction) (e - fraction.length)

def readMagnitude? (cs : List Char) : Option Binary64 :=
  let word := String.ofList (cs.map Char.toLower)
  if word = "inf" ∨ word = "infinity" then some infinity
  else if word = "nan" then some nan
  else readDecimal? cs

def read? : List Char → Option Binary64
  | '-' :: cs => (readMagnitude? cs).map neg
  | '+' :: cs => readMagnitude? cs
  | cs => readMagnitude? cs

end RemoteWrite.Binary64
