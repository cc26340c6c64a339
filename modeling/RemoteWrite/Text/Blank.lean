/-!
# Blanks and letter case

`isBlank` is the property White_Space of Unicode. Letter case is that of ASCII alone: header values
and their parts are compared so.
-/

namespace RemoteWrite.Text

def isBlank (c : Char) : Bool :=
  let n := c.toNat
  (0x09 ≤ n && n ≤ 0x0d) || n == 0x20 || n == 0x85 || n == 0xa0 || n == 0x1680
    || (0x2000 ≤ n && n ≤ 0x200a) || n == 0x2028 || n == 0x2029 || n == 0x202f || n == 0x205f
    || n == 0x3000

/-- Without the characters of a class at the end. -/
def dropEnd (p : Char → Bool) (cs : List Char) : List Char := (cs.reverse.dropWhile p).reverse

def trimEnd (cs : List Char) : List Char := dropEnd isBlank cs

def trim (cs : List Char) : List Char := trimEnd (cs.dropWhile isBlank)

def lower (cs : List Char) : List Char := cs.map Char.toLower

def sameIgnoringCase (a b : List Char) : Bool := lower a == lower b

/-- What stands before the first `sep` and what stands after it. -/
def splitOnce? (sep : Char) (cs : List Char) : Option (List Char × List Char) :=
  match cs.dropWhile (· ≠ sep) with
  | [] => none
  | _ :: rest => some (cs.takeWhile (· ≠ sep), rest)

end RemoteWrite.Text
