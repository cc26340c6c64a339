import RemoteWrite.Scrape.Line
import RemoteWrite.Series.Spec

/-!
# Scrape text

What a scrape text exposes: its samples in the order of the lines and what its comments say of
metric families. Neighbouring samples of one name and label list are one series of a message.
-/

namespace RemoteWrite

structure Scrape where
  /-- Each family once, in the order of the first comments. -/
  families : List (String × Metadata)
  samples : List Scrape.Sample
  deriving DecidableEq, Inhabited

namespace Scrape

def empty : Scrape := ⟨[], []⟩

/-- Changes the metadata of a family, which is unspecified before its first comment. -/
def updateFamily (name : String) (f : Metadata → Metadata) :
    List (String × Metadata) → List (String × Metadata)
  | [] => [(name, f ⟨.unspecified, none, none⟩)]
  | (n, m) :: families =>
    if n = name then (n, f m) :: families else (n, m) :: updateFamily name f families

def family? (x : Scrape) (name : String) : Option Metadata :=
  (x.families.find? (·.1 = name)).map (·.2)

/-- Adds what a line says; of two comments of one kind the later one counts. -/
def add (x : Scrape) : Line → Scrape
  | .sample s => { x with samples := x.samples ++ [s] }
  | .help name text =>
    { x with families := updateFamily name (fun m => { m with help := some text }) x.families }
  | .type name type =>
    { x with families := updateFamily name (fun m => { m with type }) x.families }
  | .unit name unit =>
    { x with families := updateFamily name (fun m => { m with unit }) x.families }
  | .remark => x

/-- Reads lines from the given number on, up to the end marker. -/
def readLines (format : ScrapeFormat) :
    (number : Nat) → List (List Char) → Scrape → Except Error Scrape
  | _, [], x => .ok x
  | number, line :: rest, x =>
    let line := Text.trim line
    if line.isEmpty then readLines format (number + 1) rest x
    else if line = endMarker then .ok x
    else
      match readLine format line with
      | .error fault => .error (.line number fault)
      | .ok item => readLines format (number + 1) rest (x.add item)

def read (format : ScrapeFormat) (text : String) : Except Error Scrape :=
  readLines format 1 (lines text.toList) .empty

/-- The metadata of a sample's name: of the name itself, else of the name without a classic suffix,
else of its family. -/
def describe? (x : Scrape) (name : String) : Option Metadata :=
  [name, Family.stripClassic name, Family.ofSeries name].findSome? x.family?

/-- One name and the same labels in the same order. -/
def Sample.sameSeries (a b : Sample) : Bool := a.name == b.name && a.labels == b.labels

/-- The value of a sample with its timestamp, which is `now` if it has none. -/
def Sample.timed (now : Int64) (s : Sample) : SampleSpec := ⟨s.value, s.timestamp.getD now⟩

/-- The series of neighbouring samples, of which `first` leads. -/
def specOf (x : Scrape) (now : Int64) (first : Sample) (samples : List Sample) : SeriesSpec where
  labels := (Labels.metricLabel, first.name) :: first.labels
  samples := samples.map (·.timed now)
  histograms := []
  exemplars := []
  metadata := x.describe? first.name
  createdTimestamp := 0

/-- Adds the next sample to the last series, or to a new one if the sample before it was of another
series. -/
def addSample (x : Scrape) (now : Int64) :
    List SeriesSpec × Option Sample → Sample → List SeriesSpec × Option Sample
  | (specs, previous), s =>
    let specs := if previous.any (·.sameSeries s) then specs else specs ++ [x.specOf now s []]
    let last := specs.getLast?.map fun spec => { spec with samples := spec.samples ++ [s.timed now] }
    (specs.dropLast ++ last.toList, some s)

def specs (x : Scrape) (now : Int64) : List SeriesSpec :=
  (x.samples.foldl (x.addSample now) ([], none)).1

def message (x : Scrape) (version : Version) (now : Int64) : Except Error Message :=
  Message.ofSpecs version (x.specs now)

end Scrape

end RemoteWrite
