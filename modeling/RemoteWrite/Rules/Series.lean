import RemoteWrite.Rules.Reference
import RemoteWrite.Series.View

/-!
# Rules for one series

Names ascend and differ, timestamps are in milliseconds and do not go back, samples and native
histograms exclude each other, and histograms hold as many buckets as their spans cover. Exemplars
and metadata are looked at in their resolved form.
-/

namespace RemoteWrite.Rules

open Text

/-- Timestamps below are most likely seconds, those above micro- or nanoseconds. -/
def isMillisecond (t : Int64) : Bool := 1000000000000 ≤ t && t ≤ 10000000000000000

def maxExemplarRunes : Nat := 128

def labels (l : Labels) (place : Location) : List Finding :=
  let duplicates := l.repeatedNames
  [.of place .must "labels-sorted" l.isAscending
    ("label names not in ascending byte order: " ++ bracketed (l.names.map quote)),
   .of place .must "labels-unique" duplicates.isEmpty
    ("duplicate label names: " ++ bracketed (duplicates.map quote)),
   .of place .must "metric-name" (l.metric?.getD "" ≠ "") "__name__ label missing or empty"]

/-- The position of the first timestamp that is less than the one before it. -/
def firstRegression? (timestamps : List Int64) : Option Nat :=
  ((neighbours timestamps).findIdx? fun (a, b) => b < a).map (· + 1)

def ticks (what : String) (timestamps : List Int64) (place : Location) : List Finding :=
  let bad := timestamps.find? fun t => !isMillisecond t
  let regression := firstRegression? timestamps
  [.of place .must (what ++ "-timestamp-millis") bad.isNone
    s!"{what} timestamp {bad.getD 0} is not in milliseconds",
   .of place .must (what ++ "-timestamps-ordered") regression.isNone
    s!"{what} {regression.getD 0} goes back in time"]

/-- The first stale marker at whose timestamp there is a number too. -/
def staleClash? (samples : List Sample) : Option Sample :=
  (samples.filter (·.value.isNaN)).find? fun marker =>
    samples.any fun s => !s.value.isNaN && s.timestamp == marker.timestamp

def samples (samples : List Sample) (place : Location) : List Finding :=
  let timestamps := samples.map (·.timestamp)
  let clash := (staleClash? samples).map (·.timestamp)
  ticks "sample" timestamps place
  ++ (if samples.any (·.value.isNaN) then
      [.of place .should "sample-stale-marker" clash.isNone
        s!"stale marker at {clash.getD 0} shares its timestamp with a sample"]
    else [])
  ++ match samples with
    | ⟨_, first, some created⟩ :: _ =>
      [.of place .should "created-timestamp" (created ≤ first)
        s!"created timestamp {created} is after first sample at {first}"]
    | _ => []

def spanLength (spans : List Span) : UInt64 :=
  (spans.map (·.length.toUInt64)).foldl (· + ·) 0

/-- Both counts of a histogram are whole, both are doubles, or one is absent. -/
def isKindConsistent (h : Histogram) : Bool :=
  match h.count, h.zeroCount with
  | some (.whole _), some (.double _) => false
  | some (.double _), some (.whole _) => false
  | _, _ => true

/-- The numbers of positive and negative buckets, in the form that the count has. -/
def bucketCounts (h : Histogram) : Nat × Nat :=
  if h.usesDoubles then (h.positiveCounts.length, h.negativeCounts.length)
  else (h.positiveDeltas.length, h.negativeDeltas.length)

def histogram (h : Histogram) (i : Nat) (place : Location) : List Finding :=
  let (positive, negative) := bucketCounts h
  let wantPositive := (spanLength h.positiveSpans).toNat
  let wantNegative := (spanLength h.negativeSpans).toNat
  [.of place .should "histogram-count-set" h.count.isSome s!"histogram {i} has no count",
   .of place .must "histogram-kind-consistent" (isKindConsistent h)
    s!"histogram {i} mixes integer and float counts",
   .of place .must "histogram-spans" (positive = wantPositive && negative = wantNegative)
    (s!"histogram {i} spans cover {wantPositive}/{wantNegative} buckets "
      ++ s!"but {positive}/{negative} are present")]

def histograms (histograms : List Histogram) (place : Location) : List Finding :=
  if histograms.isEmpty then []
  else
    ticks "histogram" (histograms.map (·.timestamp)) place
    ++ histograms.zipIdx.flatMap fun (h, i) => histogram h i place

def exemplar (e : Exemplar) (i : Nat) (place : Location) : List Finding :=
  let runes := e.labels.runes
  [.of place .must "exemplar-labels-length" (runes ≤ maxExemplarRunes)
    s!"exemplar {i} labels are {runes} characters, limit is {maxExemplarRunes}",
   .of place .must "exemplar-timestamp" (isMillisecond e.timestamp)
    s!"exemplar {i} timestamp {e.timestamp} is not in milliseconds"]

/-- Exemplars are judged one by one, if all of them resolve. -/
def exemplars (v : SeriesView) (place : Location) : List Finding :=
  match v.exemplars with
  | .error e =>
    [.of place .must "exemplar-refs" false ("exemplar labels don't resolve: " ++ e.message)]
  | .ok exemplars => exemplars.zipIdx.flatMap fun (e, i) => exemplar e i place

def metadata (v : SeriesView) (place : Location) : List Finding :=
  match v.metadata, v with
  | .error e, _ =>
    [.of place .must "metadata-refs" false ("metadata references don't resolve: " ++ e.message)]
  | .ok none, .indexed .. =>
    [.of place .recommended "metadata-present" false "series carries no metadata"]
  | .ok _, _ => []

/-- The label references, which only the indexed version has. -/
def references (v : SeriesView) (place : Location) : List Finding :=
  match v with
  | .legacy .. => []
  | .indexed m s => labelRefs s.labelRefs m.symbols.length place

/-- Label rules are applied where the labels resolve; references have rules of their own. -/
def resolvedLabels (v : SeriesView) (place : Location) : List Finding :=
  match v.labels with
  | .ok l => labels l place
  | .error _ => []

def data (v : SeriesView) (place : Location) : List Finding :=
  [.of place .must "series-has-data" (0 < v.numSamples || !v.histograms.isEmpty)
    "series has neither samples nor histograms",
   .of place .must "samples-histograms-exclusive" (!v.mixes)
    s!"series holds {v.numSamples} samples and {v.histograms.length} histograms"]

def series (v : SeriesView) (place : Location) : List Finding :=
  references v place ++ resolvedLabels v place ++ data v place ++ samples v.samples place
  ++ histograms v.histograms place ++ exemplars v place ++ metadata v place

end RemoteWrite.Rules
