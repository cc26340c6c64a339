import RemoteWrite.Series.View

/-!
# Building messages from series

A series is described by plain labels, samples, histograms, exemplars and metadata. Building sorts
the labels of each series by name, as a conforming sender does, and for the indexed version interns
all texts.
-/

namespace RemoteWrite

structure SampleSpec where
  value : Binary64
  timestamp : Int64
  deriving DecidableEq, Inhabited

structure ExemplarSpec where
  labels : LabelList
  value : Binary64
  timestamp : Int64
  deriving DecidableEq, Inhabited

/-- What one series is to hold. -/
structure SeriesSpec where
  labels : LabelList
  samples : List SampleSpec
  histograms : List Histogram
  exemplars : List ExemplarSpec
  metadata : Option Metadata
  createdTimestamp : Int64
  deriving DecidableEq, Inhabited

namespace SeriesSpec

def labelsByName (s : SeriesSpec) : LabelList := s.labels.mergeSort fun a b => Text.le a.1 b.1

/-- The metric family, by the first metric name among the labels. -/
def family (s : SeriesSpec) : String :=
  Family.ofSeries ((Labels.mk s.labels).metric?.getD "")

end SeriesSpec

namespace Legacy

def labelsOf (pairs : LabelList) : List Label := pairs.map fun (name, value) => ⟨name, value⟩

def Series.ofSpec (s : SeriesSpec) : Series where
  labels := labelsOf s.labelsByName
  samples := s.samples.map fun x => ⟨x.value, x.timestamp⟩
  exemplars := s.exemplars.map fun e => ⟨labelsOf e.labels, e.value, e.timestamp⟩

/-- Metadata of a family is kept once, as it is first given. -/
def addMetadata (metadata : List FamilyInfo) (s : SeriesSpec) : List FamilyInfo :=
  match s.metadata with
  | none => metadata
  | some d =>
    if metadata.all (·.family ≠ s.family) then
      metadata ++ [⟨d.type.number, s.family, d.help.getD "", d.unit.getD ""⟩]
    else metadata

/-- Fails exactly on native histograms, which the legacy message cannot hold. -/
def Message.ofSpecs (specs : List SeriesSpec) : Except Error Message :=
  if specs.all (·.histograms.isEmpty) then
    .ok ⟨specs.map Series.ofSpec, specs.foldl addMetadata []⟩
  else .error .histogramInLegacy

end Legacy

namespace Indexed

def exemplarOf (e : ExemplarSpec) : Interning Exemplar := do
  return ⟨← Interning.internLabels e.labels, e.value, e.timestamp⟩

def metadataOf (d : RemoteWrite.Metadata) : Interning Metadata := do
  let help ← Interning.internOption d.help
  let unit ← Interning.internOption d.unit
  return ⟨d.type.number, help, unit⟩

/-- Interns the labels, then those of the exemplars, then the texts of the metadata. -/
def seriesOf (s : SeriesSpec) : Interning Series := do
  let labelRefs ← Interning.internLabels s.labelsByName
  let exemplars ← s.exemplars.mapM exemplarOf
  let metadata ← s.metadata.mapM metadataOf
  return {
    labelRefs
    samples := s.samples.map fun x => ⟨x.value, x.timestamp⟩
    histograms := s.histograms
    exemplars
    metadata
    createdTimestamp := s.createdTimestamp }

def Message.ofSpecs (specs : List SeriesSpec) : Except Error Message :=
  match ((specs.mapM seriesOf).run).run .empty with
  | (.error e, _) => .error e
  | (.ok series, symbols) => .ok ⟨symbols.table, series⟩

end Indexed

namespace Message

/-- The message of the given version that holds the series in their order. -/
def ofSpecs (version : Version) (specs : List SeriesSpec) : Except Error Message :=
  match version with
  | .legacy => (Legacy.Message.ofSpecs specs).map .legacy
  | .indexed => (Indexed.Message.ofSpecs specs).map .indexed

end Message

end RemoteWrite
