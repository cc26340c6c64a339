import RemoteWrite.Wire.Schema

/-!
# The legacy message

Every series carries its labels; metadata stands beside the series, once for a metric family.
-/

namespace RemoteWrite.Legacy

open Wire

structure Label where
  name : String
  value : String
  deriving DecidableEq, Inhabited

structure Sample where
  value : Binary64
  timestamp : Int64
  deriving DecidableEq, Inhabited

structure Exemplar where
  labels : List Label
  value : Binary64
  timestamp : Int64
  deriving DecidableEq, Inhabited

structure Series where
  labels : List Label
  samples : List Sample
  exemplars : List Exemplar
  deriving DecidableEq, Inhabited

/-- What is known of a metric family; `type` is an enumeration number, known or not. -/
structure FamilyInfo where
  type : Int32
  family : String
  help : String
  unit : String
  deriving DecidableEq, Inhabited

structure Message where
  series : List Series
  metadata : List FamilyInfo
  deriving DecidableEq, Inhabited

def Label.schema : Schema Label where
  name := "Label"
  empty := ⟨"", ""⟩
  fields := [
    .text 1 "name" (·.name) (fun v a => { a with name := v }),
    .text 2 "value" (·.value) (fun v a => { a with value := v })]

def Sample.schema : Schema Sample where
  name := "Sample"
  empty := ⟨.zero, 0⟩
  fields := [
    .scalar 1 "value" .double (·.value) (fun v a => { a with value := v }),
    .scalar 2 "timestamp" .int64 (·.timestamp) (fun v a => { a with timestamp := v })]

def Exemplar.schema : Schema Exemplar where
  name := "Exemplar"
  empty := ⟨[], .zero, 0⟩
  fields := [
    .messages 1 "labels" Label.schema (·.labels) (fun v a => { a with labels := v }),
    .scalar 2 "value" .double (·.value) (fun v a => { a with value := v }),
    .scalar 3 "timestamp" .int64 (·.timestamp) (fun v a => { a with timestamp := v })]

def Series.schema : Schema Series where
  name := "TimeSeries"
  empty := ⟨[], [], []⟩
  fields := [
    .messages 1 "labels" Label.schema (·.labels) (fun v a => { a with labels := v }),
    .messages 2 "samples" Sample.schema (·.samples) (fun v a => { a with samples := v }),
    .messages 3 "exemplars" Exemplar.schema (·.exemplars) (fun v a => { a with exemplars := v })]

def FamilyInfo.schema : Schema FamilyInfo where
  name := "MetricMetadata"
  empty := ⟨0, "", "", ""⟩
  fields := [
    .scalar 1 "r#type" .int32 (·.type) (fun v a => { a with type := v }),
    .text 2 "metric_family_name" (·.family) (fun v a => { a with family := v }),
    .text 4 "help" (·.help) (fun v a => { a with help := v }),
    .text 5 "unit" (·.unit) (fun v a => { a with unit := v })]

def Message.schema : Schema Message where
  name := "WriteRequest"
  empty := ⟨[], []⟩
  fields := [
    .messages 1 "timeseries" Series.schema (·.series) (fun v a => { a with series := v }),
    .messages 3 "metadata" FamilyInfo.schema (·.metadata)
      (fun v a => { a with metadata := v })]

end RemoteWrite.Legacy
