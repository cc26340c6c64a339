/-!
# The two versions of the protocol

The legacy message carries the labels of every series inline, the indexed one refers to a table of
symbols.
-/

namespace RemoteWrite

inductive Version where
  | legacy | indexed
  deriving DecidableEq, Inhabited

namespace Version

def name : Version → String
  | legacy => "v1"
  | indexed => "v2"

def ofName? (name : String) : Option Version :=
  if name = legacy.name then some legacy
  else if name = indexed.name then some indexed
  else none

/-- The name of the message type in its schema. -/
def schema : Version → String
  | legacy => "prometheus.WriteRequest"
  | indexed => "io.prometheus.write.v2.Request"

/-- What the version header of a request says. -/
def number : Version → String
  | legacy => "0.1.0"
  | indexed => "2.0.0"

def contentType : Version → String
  | legacy => "application/x-protobuf"
  | indexed => "application/x-protobuf;proto=io.prometheus.write.v2.Request"

end Version

end RemoteWrite
