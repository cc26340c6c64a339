import RemoteWrite.Message.Histogram

/-!
# The indexed message

Texts stand once, in a table of symbols; label lists and metadata refer to them by position. A list
of label references alternates between names and values.
-/

namespace RemoteWrite.Indexed

open Wire

structure Sample where
  value : Binary64
  timestamp : Int64
  deriving DecidableEq, Inhabited

structure Exemplar where
  labelRefs : List UInt32
  value : Binary64
  timestamp : Int64
  deriving DecidableEq, Inhabited

/-- Help and unit are references, where 0 means that there is none. -/
structure Metadata where
  type : Int32
  helpRef : UInt32
  unitRef : UInt32
  deriving DecidableEq, Inhabited

/-- The created timestamp is 0 when it is not known. -/
structure Series where
  labelRefs : List UInt32
  samples : List Sample
  histograms : List Histogram
  exemplars : List Exemplar
  metadata : Option Metadata
  createdTimestamp : Int64
  deriving DecidableEq, Inhabited

structure Message where
  symbols : List String
  series : List Series
  deriving DecidableEq, Inhabited

def Sample.schema : Schema Sample where
  name := "Sample"
  empty := ⟨.zero, 0⟩
  fields := [
    .scalar 1 "value" .double (·.value) (fun v a => { a with value := v }),
    .scalar 2 "timestamp" .int64 (·.timestamp) (fun v a => { a with timestamp := v })]

def Exemplar.schema : Schema Exemplar where
  name := "Exemplar"
  empty := ⟨[], .zero, 0⟩
  fields := [
    .packed 1 "labels_refs" .uint32 (·.labelRefs) (fun v a => { a with labelRefs := v }),
    .scalar 2 "value" .double (·.value) (fun v a => { a with value := v }),
    .scalar 3 "timestamp" .int64 (·.timestamp) (fun v a => { a with timestamp := v })]

def Metadata.schema : Schema Metadata where
  name := "Metadata"
  empty := ⟨0, 0, 0⟩
  fields := [
    .scalar 1 "r#type" .int32 (·.type) (fun v a => { a with type := v }),
    .scalar 3 "help_ref" .uint32 (·.helpRef) (fun v a => { a with helpRef := v }),
    .scalar 4 "unit_ref" .uint32 (·.unitRef) (fun v a => { a with unitRef := v })]

def Series.schema : Schema Series where
  name := "TimeSeries"
  empty := ⟨[], [], [], [], none, 0⟩
  fields := [
    .packed 1 "labels_refs" .uint32 (·.labelRefs) (fun v a => { a with labelRefs := v }),
    .messages 2 "samples" Sample.schema (·.samples) (fun v a => { a with samples := v }),
    .messages 3 "histograms" Histogram.wireSchema (·.histograms)
      (fun v a => { a with histograms := v }),
    .messages 4 "exemplars" Exemplar.schema (·.exemplars) (fun v a => { a with exemplars := v }),
    .message? 5 "metadata" Metadata.schema (·.metadata) (fun v a => { a with metadata := v }),
    .scalar 6 "created_timestamp" .int64 (·.createdTimestamp)
      (fun v a => { a with createdTimestamp := v })]

def Message.schema : Schema Message where
  name := "Request"
  empty := ⟨[], []⟩
  fields := [
    .texts 4 "symbols" (·.symbols) (fun v a => { a with symbols := v }),
    .messages 5 "timeseries" Series.schema (·.series) (fun v a => { a with series := v })]

end RemoteWrite.Indexed
