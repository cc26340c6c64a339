import RemoteWrite.Net.SocketAddress
import RemoteWrite.Version

/-!
# What a sender is launched with

The addresses of a trial. Arguments of a sender may name them in braces; the names are replaced one
after another, each throughout the text.
-/

namespace RemoteWrite

/-- Replaces the occurrences of a pattern from left to right; the first `skip` characters belong to
an occurrence before. -/
def replaceFrom (pattern value : List Char) : (skip : Nat) → List Char → List Char
  | _, [] => []
  | skip + 1, _ :: cs => replaceFrom pattern value skip cs
  | 0, c :: cs =>
    if pattern.isPrefixOf (c :: cs) then value ++ replaceFrom pattern value (pattern.length - 1) cs
    else c :: replaceFrom pattern value 0 cs

/-- Replaces a pattern, which is not empty, throughout a text. -/
def replaceAll (pattern value text : String) : String :=
  String.ofList (replaceFrom pattern.toList value.toList 0 text.toList)

structure LaunchInfo where
  writeUrl : String
  scrapeUrl : String
  scrapeAddress : SocketAddress
  version : Version
  deriving DecidableEq, Inhabited

namespace LaunchInfo

def placeholder (name : String) : String := "\x7b" ++ name ++ "\x7d"

def replacements (i : LaunchInfo) : List (String × String) := [
  (placeholder "remote_write_url", i.writeUrl),
  (placeholder "scrape_url", i.scrapeUrl),
  (placeholder "scrape_address", i.scrapeAddress.text),
  (placeholder "protocol_version", i.version.name)]

def fill (i : LaunchInfo) (template : String) : String :=
  i.replacements.foldl (fun text (pattern, value) => replaceAll pattern value text) template

end LaunchInfo

end RemoteWrite
