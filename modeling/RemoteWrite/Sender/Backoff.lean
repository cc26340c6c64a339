import RemoteWrite.Duration
import RemoteWrite.Json.Record

/-!
# Backoff

How long a sender waits before it sends a batch again, and how often it does so at most. Each wait
is twice the one before it, up to a greatest wait.
-/

namespace RemoteWrite

structure Backoff where
  first : Duration
  longest : Duration
  retries : UInt32
  deriving DecidableEq

namespace Backoff

def factor (attempt : UInt32) : Nat :=
  if attempt < 32 then 1 <<< attempt.toNat else UInt32.size - 1

/-- The wait before retry number `attempt`, counted from 0. -/
def wait (b : Backoff) (attempt : UInt32) : Duration := (b.first.mul (factor attempt)).min b.longest

/-- The backoff of a record with the durations in milliseconds. -/
def ofJson? (text : String) : Option Backoff :=
  match (JsonValue.read? text).bind
      (JsonValue.fields? ["initial", "max", "max_retries"]) with
  | some [initial, max, retries] => do
    return {
      first := .ofMillis (← JsonValue.required? JsonValue.uint64? initial)
      longest := .ofMillis (← JsonValue.required? JsonValue.uint64? max)
      retries := UInt32.ofNat (← JsonValue.required? (JsonValue.nat? UInt32.size) retries) }
  | _ => none

end Backoff

end RemoteWrite
