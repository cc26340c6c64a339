/-!
# Whole numbers in text

Decimal digits with a sign where one is allowed, and nothing else. A number that does not fit is no
number.
-/

namespace RemoteWrite.Text

/-- The number that digits spell, the first one leading. -/
def ofDigits (cs : List Char) : Nat := cs.foldl (fun n c => 10 * n + (c.toNat - '0'.toNat)) 0

/-- One digit or more. -/
def readNat? (cs : List Char) : Option Nat :=
  if cs.isEmpty then none
  else if cs.all Char.isDigit then some (ofDigits cs)
  else none

/-- A number below `bound`, with or without a plus sign. -/
def readUnsigned? (bound : Nat) (cs : List Char) : Option Nat :=
  let n? := match cs with
    | '+' :: ds => readNat? ds
    | ds => readNat? ds
  n?.filter (· < bound)

/-- A number of 64 bits with or without a sign. -/
def readInt64? (cs : List Char) : Option Int64 :=
  let most := Int64.maxValue.toInt.natAbs
  match cs with
  | '-' :: ds => ((readNat? ds).filter (· ≤ most + 1)).map fun n => Int64.ofInt (-n)
  | '+' :: ds => ((readNat? ds).filter (· ≤ most)).map fun n => Int64.ofInt n
  | ds => ((readNat? ds).filter (· ≤ most)).map fun n => Int64.ofInt n

end RemoteWrite.Text
