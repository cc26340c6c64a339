import RemoteWrite.Wire.Schema

/-!
# Native histograms

A histogram counts observations, in whole numbers or in doubles, over buckets that lie in spans.
Whole bucket counts are written as differences, doubles as they are.
-/

namespace RemoteWrite

open Wire

/-- An observation count in one of its two forms. -/
inductive Count where
  | whole (n : UInt64)
  | double (x : Binary64)
  deriving DecidableEq, Inhabited

namespace Count

def whole? : Count → Option UInt64
  | whole n => some n
  | double _ => none

def double? : Count → Option Binary64
  | whole _ => none
  | double x => some x

end Count

/-- `length` neighbouring buckets, `offset` after the span before. -/
structure Span where
  offset : Int32
  length : UInt32
  deriving DecidableEq, Inhabited

structure Histogram where
  count : Option Count
  sum : Binary64
  schema : Int32
  zeroThreshold : Binary64
  zeroCount : Option Count
  negativeSpans : List Span
  negativeDeltas : List Int64
  negativeCounts : List Binary64
  positiveSpans : List Span
  positiveDeltas : List Int64
  positiveCounts : List Binary64
  resetHint : Int32
  timestamp : Int64
  customValues : List Binary64
  deriving DecidableEq, Inhabited

namespace Histogram

/-- A float histogram, by the form of its count. -/
def usesDoubles (h : Histogram) : Bool :=
  match h.count with
  | some (.double _) => true
  | _ => false

end Histogram

def Span.wireSchema : Schema Span where
  name := "BucketSpan"
  empty := ⟨0, 0⟩
  fields := [
    .scalar 1 "offset" .sint32 (·.offset) (fun v a => { a with offset := v }),
    .scalar 2 "length" .uint32 (·.length) (fun v a => { a with length := v })]

def Histogram.wireSchema : Schema Histogram where
  name := "Histogram"
  empty := ⟨none, .zero, 0, .zero, none, [], [], [], [], [], [], 0, 0, []⟩
  fields := [
    .choice 1 "count" .uint64 (·.count.bind (·.whole?))
      (fun v a => { a with count := some (.whole v) }),
    .choice 2 "count" .double (·.count.bind (·.double?))
      (fun v a => { a with count := some (.double v) }),
    .scalar 3 "sum" .double (·.sum) (fun v a => { a with sum := v }),
    .scalar 4 "schema" .sint32 (·.schema) (fun v a => { a with schema := v }),
    .scalar 5 "zero_threshold" .double (·.zeroThreshold)
      (fun v a => { a with zeroThreshold := v }),
    .choice 6 "zero_count" .uint64 (·.zeroCount.bind (·.whole?))
      (fun v a => { a with zeroCount := some (.whole v) }),
    .choice 7 "zero_count" .double (·.zeroCount.bind (·.double?))
      (fun v a => { a with zeroCount := some (.double v) }),
    .messages 8 "negative_spans" Span.wireSchema (·.negativeSpans)
      (fun v a => { a with negativeSpans := v }),
    .packed 9 "negative_deltas" .sint64 (·.negativeDeltas)
      (fun v a => { a with negativeDeltas := v }),
    .packed 10 "negative_counts" .double (·.negativeCounts)
      (fun v a => { a with negativeCounts := v }),
    .messages 11 "positive_spans" Span.wireSchema (·.positiveSpans)
      (fun v a => { a with positiveSpans := v }),
    .packed 12 "positive_deltas" .sint64 (·.positiveDeltas)
      (fun v a => { a with positiveDeltas := v }),
    .packed 13 "positive_counts" .double (·.positiveCounts)
      (fun v a => { a with positiveCounts := v }),
    .scalar 14 "reset_hint" .int32 (·.resetHint) (fun v a => { a with resetHint := v }),
    .scalar 15 "timestamp" .int64 (·.timestamp) (fun v a => { a with timestamp := v }),
    .packed 16 "custom_values" .double (·.customValues)
      (fun v a => { a with customValues := v })]

end RemoteWrite
