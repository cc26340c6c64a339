/-!
# Routes

A route is a path in which a name in braces stands for what is left of a segment, and one that
starts with an asterisk for what is left of the path. A name at the end of a route does not stand
for nothing, one before a slash may. Doubled braces are plain characters, in a name too.
-/

namespace RemoteWrite

inductive RoutePart where
  | char (c : Char)
  /-- Stands for the characters up to the next slash. -/
  | segment
  /-- Stands for all characters that are left. -/
  | rest
  deriving DecidableEq, Inhabited

namespace RoutePart

/-- The parts of a route, from within a name in braces if `inName` says so. -/
def ofRoute : (inName : Bool) → List Char → List RoutePart
  | _, [] => []
  | true, '}' :: '}' :: cs => ofRoute true cs
  | true, c :: cs => ofRoute (c ≠ '}') cs
  | false, '{' :: '{' :: cs => .char '{' :: ofRoute false cs
  | false, '}' :: '}' :: cs => .char '}' :: ofRoute false cs
  | false, '{' :: '*' :: _ => [.rest]
  | false, '{' :: cs => .segment :: ofRoute true cs
  | false, c :: cs => .char c :: ofRoute false cs

/-- Whether the parts make up the path. -/
def make : List RoutePart → (path : List Char) → Bool
  | [], path => path.isEmpty
  | .char _ :: _, [] => false
  | .char c :: parts, d :: path => c == d && make parts path
  | [.segment], path => !path.isEmpty && path.all (· ≠ '/')
  | .segment :: parts, path => make parts (path.dropWhile (· ≠ '/'))
  | .rest :: _, path => !path.isEmpty

end RoutePart

def isOnRoute (route path : String) : Bool :=
  RoutePart.make (RoutePart.ofRoute false route.toList) path.toList

end RemoteWrite
