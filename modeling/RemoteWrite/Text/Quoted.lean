import RemoteWrite.Text.Hex
import RemoteWrite.Text.Hidden

/-!
# Quoted text in messages

Findings show the texts they are about in double quotes. Quotes, backslashes and the common controls
get a backslash; a character that would not be seen for itself is shown by its number.
-/

namespace RemoteWrite.Text

def quoteChar (c : Char) : String :=
  if c = '"' then "\\\""
  else if c = '\\' then "\\\\"
  else if c = '\n' then "\\n"
  else if c = '\r' then "\\r"
  else if c = '\t' then "\\t"
  else if c = '\x00' then "\\0"
  else if c.toNat < 0x20 || c.toNat = 0x7f || (0x7f < c.toNat && isHidden c) then
    "\\u\x7b" ++ hex c.toNat ++ "\x7d"
  else c.toString

def quote (s : String) : String := "\"" ++ String.join (s.toList.map quoteChar) ++ "\""

def bracketed (items : List String) : String := "[" ++ ", ".intercalate items ++ "]"

end RemoteWrite.Text
