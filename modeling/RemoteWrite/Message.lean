import RemoteWrite.Message.Indexed
import RemoteWrite.Message.Legacy
import RemoteWrite.Version

/-!
# Messages of either version
-/

namespace RemoteWrite

inductive Message where
  | legacy (message : Legacy.Message)
  | indexed (message : Indexed.Message)
  deriving DecidableEq, Inhabited

namespace Message

def version : Message → Version
  | legacy _ => .legacy
  | indexed _ => .indexed

def write : Message → Wire.Bytes
  | legacy m => Legacy.Message.schema.write m
  | indexed m => Indexed.Message.schema.write m

def read (version : Version) (bytes : Wire.Bytes) : Except Wire.Fault Message :=
  match version with
  | .legacy => (Legacy.Message.schema.read bytes).map legacy
  | .indexed => (Indexed.Message.schema.read bytes).map indexed

end Message

end RemoteWrite
