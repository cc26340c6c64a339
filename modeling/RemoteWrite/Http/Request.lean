import RemoteWrite.Http.Envelope

/-!
# Requests

The target of a request is a path, an address with a scheme, an authority alone or an asterisk. Its
path leaves out query and fragment.
-/

namespace RemoteWrite

structure Request extends Envelope where
  method : String
  path : String

/-- A letter, a digit or a sign that may stand in a scheme. -/
def isSchemeChar (c : Char) : Bool :=
  c.isAlphanum || c == '+' || c == '-' || c == '.' || c == '~'

/-- What follows the scheme of a target that has one: authority, path and the rest. -/
def afterScheme? (target : List Char) : Option (List Char) :=
  match target.dropWhile isSchemeChar with
  | ':' :: '/' :: '/' :: rest => some rest
  | _ => none

def beforeQuery (target : List Char) : List Char :=
  target.takeWhile fun c => c ≠ '?' ∧ c ≠ '#'

/-- The path of a request target. An address has the path `/` if it names none; an authority alone
has no path. -/
def targetPath (target : String) : String :=
  match target.toList with
  | '/' :: cs => String.ofList ('/' :: beforeQuery cs)
  | ['*'] => "*"
  | cs =>
    match afterScheme? cs with
    | none => ""
    | some rest =>
      match (beforeQuery rest).dropWhile (· ≠ '/') with
      | [] => "/"
      | path => String.ofList path

end RemoteWrite
