import RemoteWrite.Binary64.Rounding
import RemoteWrite.Http.Counts
import RemoteWrite.Series.Labels
import RemoteWrite.Message
import RemoteWrite.Series.MetricType

/-!
# Series of either version

A view of one series with its references resolved. Both versions answer to the same questions, so
that the rules of the protocol need not tell them apart; what only the indexed version has is empty
or absent in the legacy one.
-/

namespace RemoteWrite

/-- A sample, and when its series was created if that is known. -/
structure Sample where
  value : Binary64
  timestamp : Int64
  created : Option Int64
  deriving DecidableEq, Inhabited

structure Exemplar where
  labels : Labels
  value : Binary64
  timestamp : Int64
  deriving DecidableEq, Inhabited

/-- Metadata of a series; an absent text and an empty one are the same. -/
structure Metadata where
  type : MetricType
  help : Option String
  unit : Option String
  deriving DecidableEq, Inhabited

/-- The observation count as a double, whole counts to the nearest. -/
def Histogram.observations (h : Histogram) : Option Binary64 :=
  h.count.map fun
    | .whole n => Binary64.ofNat n.toNat
    | .double x => x

/-- One series of a message, with the message. -/
inductive SeriesView where
  | legacy (message : Legacy.Message) (series : Legacy.Series)
  | indexed (message : Indexed.Message) (series : Indexed.Series)

namespace SeriesView

def ofLegacyLabels (labels : List Legacy.Label) : Labels := ⟨labels.map fun l => (l.name, l.value)⟩

def labels : SeriesView → Except Error Labels
  | legacy _ s => .ok (ofLegacyLabels s.labels)
  | indexed m s => (SymbolTable.resolve m.symbols s.labelRefs).map Labels.mk

/-- The metric name, if the labels resolve and have one. -/
def metric? (v : SeriesView) : Option String :=
  match v.labels with
  | .ok labels => labels.metric?
  | .error _ => none

def samples : SeriesView → List Sample
  | legacy _ s => s.samples.map fun x => ⟨x.value, x.timestamp, none⟩
  | indexed _ s =>
    let created := if s.createdTimestamp = 0 then none else some s.createdTimestamp
    s.samples.map fun x => ⟨x.value, x.timestamp, created⟩

def numSamples : SeriesView → Nat
  | legacy _ s => s.samples.length
  | indexed _ s => s.samples.length

def histograms : SeriesView → List Histogram
  | legacy .. => []
  | indexed _ s => s.histograms

/-- The exemplars with their labels; the first that does not resolve decides. -/
def exemplars : SeriesView → Except Error (List Exemplar)
  | legacy _ s => .ok (s.exemplars.map fun e => ⟨ofLegacyLabels e.labels, e.value, e.timestamp⟩)
  | indexed m s =>
    s.exemplars.mapM fun e => do
      let pairs ← SymbolTable.resolve m.symbols e.labelRefs
      return ⟨⟨pairs⟩, e.value, e.timestamp⟩

def numExemplars : SeriesView → Nat
  | legacy _ s => s.exemplars.length
  | indexed _ s => s.exemplars.length

def nonempty? (s : String) : Option String := if s = "" then none else some s

/-- A legacy message keeps metadata by family: the first entry counts that names the family of the
series, the series itself or the series without a classic suffix. -/
def metadata : SeriesView → Except Error (Option Metadata)
  | v@(legacy m _) =>
    match v.metric? with
    | none => .ok none
    | some name =>
      let found := m.metadata.find? fun f =>
        f.family = Family.ofSeries name ∨ f.family = name ∨ f.family = Family.stripClassic name
      .ok (found.map fun f => ⟨.ofNumber f.type, nonempty? f.help, nonempty? f.unit⟩)
  | indexed m s =>
    match s.metadata with
    | none => .ok none
    | some d => do
      let help ← SymbolTable.lookupOption m.symbols d.helpRef
      let unit ← SymbolTable.lookupOption m.symbols d.unitRef
      return some ⟨.ofNumber d.type, help, unit⟩

/-- Samples and native histograms in one series. -/
def mixes (v : SeriesView) : Bool := 0 < v.numSamples && !v.histograms.isEmpty

def counts (v : SeriesView) : Counts :=
  ⟨.ofNat v.numSamples, .ofNat v.histograms.length, .ofNat v.numExemplars⟩

end SeriesView

namespace Message

def series : Message → List SeriesView
  | legacy m => m.series.map (.legacy m)
  | indexed m => m.series.map (.indexed m)

def size : Message → Nat
  | legacy m => m.series.length
  | indexed m => m.series.length

def isEmpty (m : Message) : Bool := m.size == 0

def series? (m : Message) (name : String) : Option SeriesView :=
  m.series.find? (·.metric? = some name)

def counts (m : Message) : Counts := (m.series.map SeriesView.counts).foldl (· + ·) .zero

end Message

end RemoteWrite
