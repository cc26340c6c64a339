import RemoteWrite.Receiver.Captured
import RemoteWrite.Rules.Message
import RemoteWrite.Version.Claimed

/-!
# Rules for requests

A request is a POST whose headers name the encoding, the version expected and the sender, and whose
body decodes to a message.
-/

namespace RemoteWrite

structure Demand where
  version : Version
  path : Option String
  atLeast : Nat
  deriving DecidableEq, Inhabited

namespace Rules

open Text Envelope

def headers (r : Request) (demand : Demand) (place : Location) : List Finding :=
  let encoding := (r.headers.text? encodingHeader).getD ""
  let contentType := (r.headers.text? contentTypeHeader).getD ""
  let version := (r.headers.text? versionHeader).getD ""
  let userAgent := (r.headers.text? userAgentHeader).getD ""
  [.of place .must "method" (r.method = "POST") s!"method is {r.method}, want POST",
   .of place .must "content-encoding"
    (sameIgnoringCase (trim encoding.toList) snappyName.toList)
    ("Content-Encoding is " ++ quote encoding ++ ", want " ++ quote snappyName),
   .of place .must "content-type" (Version.ofContentType? contentType = some demand.version)
    ("Content-Type " ++ quote contentType ++ s!" doesn't match protocol {demand.version.name}"),
   .of place .must "version-header" (Version.ofNumber? version = some demand.version)
    (versionHeader ++ " is " ++ quote version ++ ", want " ++ quote demand.version.number),
   .of place .must "user-agent" (!(trim userAgent.toList).isEmpty) "User-Agent is missing"]
  ++ match demand.path with
    | none => []
    | some path =>
      [.of place .should "write-path" (r.path = path) s!"request sent to {r.path}, want {path}"]

def request (c : Captured) (demand : Demand) : List Finding :=
  let place := Location.ofRequest c.index
  headers c.toRequest demand place
  ++ match c.decoded with
    | .ok m => .of place .must "request-decoded" true "" :: message m place
    | .error e =>
      [.of place .must "request-decoded" false
        (s!"request {c.index} could not be parsed: " ++ e.message)]

def requestCount (n minimum : Nat) : Finding :=
  .of .whole .must "request-count" (minimum ≤ n)
    s!"insufficient requests captured: got {n}, want at least {minimum}"

end Rules

def Demand.judge (demand : Demand) (requests : Conversation) : Report :=
  ⟨Rules.requestCount requests.length demand.atLeast
    :: requests.flatMap fun r => Rules.request r demand⟩

end RemoteWrite
