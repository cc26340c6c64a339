/-!
# Metric types and families

Both message formats number the metric types alike; a number without a type is unspecified. The
series of a classic histogram or summary differ from their family's name in a suffix.
-/

namespace RemoteWrite

inductive MetricType where
  | unspecified | counter | gauge | histogram | gaugeHistogram | summary | info | stateSet
  deriving DecidableEq, Inhabited

namespace MetricType

def number : MetricType → Int32
  | unspecified => 0
  | counter => 1
  | gauge => 2
  | histogram => 3
  | gaugeHistogram => 4
  | summary => 5
  | info => 6
  | stateSet => 7

def all : List MetricType :=
  [unspecified, counter, gauge, histogram, gaugeHistogram, summary, info, stateSet]

def ofNumber (n : Int32) : MetricType := (all.find? (·.number = n)).getD unspecified

def word : MetricType → String
  | unspecified => "unspecified"
  | counter => "counter"
  | gauge => "gauge"
  | histogram => "histogram"
  | gaugeHistogram => "gaugehistogram"
  | summary => "summary"
  | info => "info"
  | stateSet => "stateset"

def ofWord (word : String) : MetricType := (all.find? (·.word = word)).getD unspecified

/-- The type as findings show it. -/
def name : MetricType → String
  | unspecified => "Unspecified"
  | counter => "Counter"
  | gauge => "Gauge"
  | histogram => "Histogram"
  | gaugeHistogram => "GaugeHistogram"
  | summary => "Summary"
  | info => "Info"
  | stateSet => "StateSet"

end MetricType

namespace Family

def strip? (suffix name : String) : Option String :=
  (suffix.toList.isSuffixOf? name.toList).map String.ofList

/-- The suffixes of the series of a classic histogram or summary. -/
def seriesSuffixes : List String := ["_bucket", "_count", "_sum"]

def stripClassic (name : String) : String :=
  (seriesSuffixes.findSome? (strip? · name)).getD name

/-- The family of a series: its name without a classic suffix and without `_total`. -/
def ofSeries (name : String) : String :=
  let name := stripClassic name
  (strip? "_total" name).getD name

end Family

end RemoteWrite
