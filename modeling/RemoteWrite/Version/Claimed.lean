import RemoteWrite.Text.Blank
import RemoteWrite.Version

/-!
# The version that a request claims

The version header counts by its part before the first point. A content type counts by its media
type and by its first parameter `proto`; without that parameter it means the legacy schema.
-/

namespace RemoteWrite.Version

open Text

def ofNumber? (value : String) : Option Version :=
  let major := String.ofList ((trim value.toList).takeWhile (· ≠ '.'))
  if major = "0" ∨ major = "1" then some legacy
  else if major = "2" then some indexed
  else none

def mediaType : String := "application/x-protobuf"

/-- The value of a parameter, without blanks and quotes around it, if its name is `proto`. -/
def protoParameter? (parameter : List Char) : Option String :=
  match splitOnce? '=' (trim parameter) with
  | none => none
  | some (name, value) =>
    if sameIgnoringCase (trim name) "proto".toList then
      some (String.ofList (dropEnd (· = '"') ((trim value).dropWhile (· = '"'))))
    else none

/-- The version whose schema has the name; no name means the legacy one. -/
def ofSchema? : Option String → Option Version
  | none => some legacy
  | some name =>
    if name = legacy.schema then some legacy
    else if name = indexed.schema then some indexed
    else none

/-- The version of a media type and its parameters, blanks around them included. -/
def ofParts? : List (List Char) → Option Version
  | [] => none
  | type :: parameters =>
    if sameIgnoringCase (trim type) mediaType.toList then
      ofSchema? (parameters.findSome? protoParameter?)
    else none

def ofContentType? (value : String) : Option Version := ofParts? (value.toList.splitOn ';')

end RemoteWrite.Version
