import RemoteWrite.Report

/-!
# Reports as indented JSON

Two spaces to a level, one member or item to a line. An empty message is left out. Only quotes,
backslashes and controls are escaped, in their short forms where there are such.
-/

namespace RemoteWrite.Report

/-- A number of two digits, in lowercase hexadecimal. -/
def hexPair (n : Nat) : String :=
  String.ofList (Nat.toDigits 16 (n / 16) ++ Nat.toDigits 16 (n % 16))

def escapeChar (c : Char) : String :=
  if c = '"' then "\\\""
  else if c = '\\' then "\\\\"
  else if c = '\x08' then "\\b"
  else if c = '\x0c' then "\\f"
  else if c = '\n' then "\\n"
  else if c = '\r' then "\\r"
  else if c = '\t' then "\\t"
  else if c.toNat < 0x20 then "\\u00" ++ hexPair c.toNat
  else c.toString

def jsonText (s : String) : String := "\"" ++ String.join (s.toList.map escapeChar) ++ "\""

/-- Members in braces, or items in brackets, `depth` levels deep. -/
def block (depth : Nat) (start stop : String) (lines : List String) : String :=
  let margin (n : Nat) := String.ofList (List.replicate (2 * n) ' ')
  start ++ "\n" ++ ",\n".intercalate (lines.map (margin (depth + 1) ++ ·))
    ++ "\n" ++ margin depth ++ stop

def jsonMember (name value : String) : String := jsonText name ++ ": " ++ value

def jsonNumber? : Option Nat → String
  | none => "null"
  | some n => toString n

def jsonFinding (f : Finding) : String :=
  let location := block 3 "\x7b" "\x7d" [
    jsonMember "request" (jsonNumber? f.location.request),
    jsonMember "series" (jsonNumber? f.location.series)]
  let members := [
    jsonMember "level" (jsonText f.level.name),
    jsonMember "check" (jsonText f.check),
    jsonMember "passed" (if f.passed then "true" else "false"),
    jsonMember "location" location]
  block 2 "\x7b" "\x7d"
    (if f.message = "" then members
      else members ++ [jsonMember "message" (jsonText f.message)])

def json (r : Report) : String :=
  let findings := if r.findings.isEmpty then "[]"
    else block 1 "[" "]" (r.findings.map jsonFinding)
  block 0 "\x7b" "\x7d" [jsonMember "findings" findings]

end RemoteWrite.Report
