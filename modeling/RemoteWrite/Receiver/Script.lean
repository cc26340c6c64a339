import RemoteWrite.Json.Record

/-!
# Response scripts

A script lists the responses that a receiver is to give, one for each request in the order of their
arrival.
-/

namespace RemoteWrite

/-- One response of a script. Written counts that are absent or zero stand for what was decoded. -/
structure ScriptEntry where
  status : UInt16
  headers : List (String × String)
  body : String
  written : Option Counts
  deriving DecidableEq, Inhabited

namespace ScriptEntry

def ofStatus (status : UInt16) : ScriptEntry := ⟨status, [], "", none⟩

/-- The usual response of a healthy receiver. -/
def success : ScriptEntry := ofStatus 204

def succeeds (r : ScriptEntry) : Bool := 200 ≤ r.status && r.status < 300

/-- The written counts, if there are some and not all of them are zero. -/
def explicitCounts? (r : ScriptEntry) : Option Counts := r.written.filter (!·.isZero)

def ofJson? (v : JsonValue) : Option ScriptEntry :=
  match v.fields? ["status", "headers", "body", "written"] with
  | some [status, headers, body, written] => do
    return {
      status := UInt16.ofNat (← JsonValue.required? (JsonValue.nat? UInt16.size) status)
      headers := ← JsonValue.withDefault? (JsonValue.list? JsonValue.textPair?) [] headers
      body := ← JsonValue.withDefault? JsonValue.text? "" body
      written := ← JsonValue.withDefault? (JsonValue.optional? JsonValue.counts?) none written }
  | _ => none

end ScriptEntry

abbrev Script := List ScriptEntry

def Script.ofSuccesses (n : Nat) : Script := List.replicate n .success

def Script.ofJson? (text : String) : Option Script :=
  (JsonValue.read? text).bind (JsonValue.list? ScriptEntry.ofJson?)

end RemoteWrite
