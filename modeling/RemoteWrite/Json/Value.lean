import RemoteWrite.Text.Hex

/-!
# JSON text

The grammar of JSON without extensions: four blanks, no comments, no commas too many. Numbers are
kept as they are spelled and strings with their escapes apart, since what a number or an escape
means is asked only where a value is used.
-/

namespace RemoteWrite

/-- A character of a string, or one 16-bit unit that an escape names. -/
inductive JsonUnit where
  | char (c : Char)
  | unit (n : Nat)
  deriving DecidableEq, Inhabited

inductive JsonValue where
  | null
  | bool (b : Bool)
  | number (literal : List Char)
  | string (units : List JsonUnit)
  | array (items : List JsonValue)
  | object (members : List (List JsonUnit × JsonValue))
  deriving Inhabited

namespace JsonValue

def isBlank (c : Char) : Bool := c == ' ' || c == '\t' || c == '\n' || c == '\r'

def skipBlank (cs : List Char) : List Char := cs.dropWhile isBlank

/-- What a backslash and a character stand for. -/
def escape? (c : Char) : Option Char :=
  if c = '"' ∨ c = '\\' ∨ c = '/' then some c
  else if c = 'b' then some '\x08'
  else if c = 'f' then some '\x0c'
  else if c = 'n' then some '\n'
  else if c = 'r' then some '\r'
  else if c = 't' then some '\t'
  else none

/-- A string up to its closing quote, which is taken off too. Controls have to be escaped. -/
def readString : List Char → Option (List JsonUnit × List Char)
  | '"' :: cs => some ([], cs)
  | '\\' :: 'u' :: a :: b :: c :: d :: cs => do
    let n ← Text.readHex? [a, b, c, d]
    let (units, rest) ← readString cs
    return (.unit n :: units, rest)
  | '\\' :: c :: cs => do
    let c ← escape? c
    let (units, rest) ← readString cs
    return (.char c :: units, rest)
  | c :: cs => do
    if c.toNat < 0x20 ∨ c = '\\' then none
    let (units, rest) ← readString cs
    return (.char c :: units, rest)
  | [] => none

def takeDigits? (cs : List Char) : Option (List Char × List Char) :=
  let digits := cs.takeWhile Char.isDigit
  if digits.isEmpty then none else some (digits, cs.dropWhile Char.isDigit)

/-- A whole number without superfluous zeros. -/
def takeWhole? : List Char → Option (List Char × List Char)
  | '0' :: cs => some (['0'], cs)
  | cs => takeDigits? cs

def takeFraction? : List Char → Option (List Char × List Char)
  | '.' :: cs => do
    let (digits, rest) ← takeDigits? cs
    return ('.' :: digits, rest)
  | cs => some ([], cs)

def takeExponent? : List Char → Option (List Char × List Char)
  | c :: cs =>
    if c = 'e' ∨ c = 'E' then do
      let (sign, cs) := match cs with
        | '+' :: cs => (['+'], cs)
        | '-' :: cs => (['-'], cs)
        | cs => ([], cs)
      let (digits, rest) ← takeDigits? cs
      return (c :: sign ++ digits, rest)
    else some ([], c :: cs)
  | [] => some ([], [])

def readNumber (cs : List Char) : Option (List Char × List Char) := do
  let (sign, cs) := match cs with
    | '-' :: cs => (['-'], cs)
    | cs => ([], cs)
  let (whole, cs) ← takeWhole? cs
  let (fraction, cs) ← takeFraction? cs
  let (exponent, cs) ← takeExponent? cs
  return (sign ++ whole ++ fraction ++ exponent, cs)

/-- What follows a word, if the text starts with it. -/
def dropWord? (word : String) (cs : List Char) : Option (List Char) := word.toList.isPrefixOf? cs

mutual

/-- A value. `room` bounds how deep values, lists of items and lists of members are in one another.
Each array and each object has two brackets of its own and each further item a comma, so as much
room as there are characters is enough. -/
def readValue : (room : Nat) → List Char → Option (JsonValue × List Char)
  | 0, _ => none
  | room + 1, cs =>
    match skipBlank cs with
    | '"' :: cs => (readString cs).map fun (units, rest) => (.string units, rest)
    | '[' :: cs =>
      match skipBlank cs with
      | ']' :: rest => some (.array [], rest)
      | cs => (readItems room cs).map fun (items, rest) => (.array items, rest)
    | '{' :: cs =>
      match skipBlank cs with
      | '}' :: rest => some (.object [], rest)
      | cs => (readMembers room cs).map fun (members, rest) => (.object members, rest)
    | 'n' :: cs => (dropWord? "ull" cs).map fun rest => (.null, rest)
    | 't' :: cs => (dropWord? "rue" cs).map fun rest => (.bool true, rest)
    | 'f' :: cs => (dropWord? "alse" cs).map fun rest => (.bool false, rest)
    | cs => (readNumber cs).map fun (literal, rest) => (.number literal, rest)

/-- The items of an array, one at least, up to its closing bracket. -/
def readItems : (room : Nat) → List Char → Option (List JsonValue × List Char)
  | 0, _ => none
  | room + 1, cs =>
    match readValue room cs with
    | none => none
    | some (item, cs) =>
      match skipBlank cs with
      | ']' :: rest => some ([item], rest)
      | ',' :: cs => (readItems room cs).map fun (items, rest) => (item :: items, rest)
      | _ => none

/-- The members of an object, one at least, up to its closing brace. -/
def readMembers : (room : Nat) → List Char → Option (List (List JsonUnit × JsonValue) × List Char)
  | 0, _ => none
  | room + 1, cs =>
    match skipBlank cs with
    | '"' :: cs =>
      match readString cs with
      | none => none
      | some (name, cs) =>
        match skipBlank cs with
        | ':' :: cs =>
          match readValue room cs with
          | none => none
          | some (value, cs) =>
            match skipBlank cs with
            | '}' :: rest => some ([(name, value)], rest)
            | ',' :: cs =>
              (readMembers room cs).map fun (members, rest) => ((name, value) :: members, rest)
            | _ => none
        | _ => none
    | _ => none

end

/-- The value that is the whole text, blanks around it aside. -/
def read? (text : String) : Option JsonValue :=
  let cs := text.toList
  match readValue (cs.length + 1) cs with
  | some (value, rest) => if (skipBlank rest).isEmpty then some value else none
  | none => none

end JsonValue

end RemoteWrite
