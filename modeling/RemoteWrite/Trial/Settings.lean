import RemoteWrite.Duration
import RemoteWrite.Error
import RemoteWrite.Json.Record

/-!
# Settings of a trial
-/

namespace RemoteWrite

structure Settings where
  /-- When the trial ends at the latest. -/
  timeout : Duration
  /-- How long whoever waits for requests lets pass before looking again. -/
  poll : Duration
  writePath : String
  scrapePath : String
  /-- Where receiver and scrape page listen. -/
  address : String
  /-- How long a sender may take to stop. -/
  grace : Duration
  version : Version
  deriving DecidableEq

namespace Settings

def default : Settings where
  timeout := .ofMillis 30000
  poll := .ofMillis 25
  writePath := "/api/v1/write"
  scrapePath := "/metrics"
  address := "127.0.0.1:0"
  grace := .ofMillis 5000
  version := .indexed

def fieldNames : List String := ["timeout", "poll_interval", "write_path", "scrape_path",
  "bind_address", "stop_grace_period", "protocol_version"]

def duration? (v : JsonValue) : Option Duration := v.uint64?.map Duration.ofMillis

def ofRecord? (v : JsonValue) : Option Settings :=
  match v.fields? fieldNames with
  | some [timeout, poll, writePath, scrapePath, address, grace, version] => do
    return {
      timeout := ← JsonValue.withDefault? duration? default.timeout timeout
      poll := ← JsonValue.withDefault? duration? default.poll poll
      writePath := ← JsonValue.withDefault? JsonValue.text? default.writePath writePath
      scrapePath := ← JsonValue.withDefault? JsonValue.text? default.scrapePath scrapePath
      address := ← JsonValue.withDefault? JsonValue.text? default.address address
      grace := ← JsonValue.withDefault? duration? default.grace grace
      version := ← JsonValue.withDefault? JsonValue.version? default.version version }
  | _ => none

def ofJson (text : String) : Except Error Settings :=
  match (JsonValue.read? text).bind ofRecord? with
  | some settings => .ok settings
  | none => .error .settings

end Settings

end RemoteWrite
