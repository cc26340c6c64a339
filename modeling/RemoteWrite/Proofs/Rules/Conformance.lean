import RemoteWrite.Proofs.Series.View
import RemoteWrite.Rules.Message

/-!
# What conforms

The protocol's MUST rules for one message, each over all positions at once: order is order of any
two elements, and a symbol is compared with every other. Nothing here says how a rule is checked.
-/

namespace RemoteWrite

/-- From 10^12 to 10^16: the times from 2001 on that milliseconds are likely to mean. -/
def Millis (t : Int64) : Prop := 10 ^ 12 ≤ t.toInt ∧ t.toInt ≤ 10 ^ 16

/-- Times in milliseconds of which none is less than one before it. -/
structure Ticks (times : List Int64) : Prop where
  millis : ∀ t ∈ times, Millis t
  ordered : times.Pairwise (· ≤ ·)

structure Labels.Conform (l : Labels) : Prop where
  ascending : l.names.Pairwise fun a b => Text.bytes a < Text.bytes b
  named : ∃ name, l.metric? = some name ∧ name ≠ ""

/-- The spans cover `n` buckets, their lengths added in a word of 64 bits. -/
def Span.Cover (spans : List Span) (n : Nat) : Prop :=
  (spans.map (·.length.toNat)).sum % 2 ^ 64 = n

/-- The word holds the lengths of fewer than `2 ^ 32` spans. -/
theorem Span.cover_iff {spans : List Span} {n : Nat} (h : spans.length < 2 ^ 32) :
    Span.Cover spans n ↔ (spans.map (·.length.toNat)).sum = n := by
  have hle : (spans.map (·.length.toNat)).sum ≤ spans.length * (2 ^ 32 - 1) := by
    clear h
    induction spans with
    | nil => exact Nat.zero_le _
    | cons s spans ih =>
      have := s.length.toNat_lt
      simp only [List.map_cons, List.sum_cons, List.length_cons]
      omega
  rw [Span.Cover, Nat.mod_eq_of_lt (by omega)]

/-- A count and a zero count have the same form, and the spans cover the buckets of the form that
the count has. -/
structure Histogram.Conforms (h : Histogram) : Prop where
  double : ∀ x, h.count = some (.double x) → ∀ n, h.zeroCount ≠ some (.whole n)
  whole : ∀ n, h.count = some (.whole n) → ∀ x, h.zeroCount ≠ some (.double x)
  counts : (∃ x, h.count = some (.double x)) →
    Span.Cover h.positiveSpans h.positiveCounts.length ∧
      Span.Cover h.negativeSpans h.negativeCounts.length
  deltas : (¬ ∃ x, h.count = some (.double x)) →
    Span.Cover h.positiveSpans h.positiveDeltas.length ∧
      Span.Cover h.negativeSpans h.negativeDeltas.length

structure Exemplar.Conforms (e : Exemplar) : Prop where
  runes : e.labels.runes ≤ 128
  millis : Millis e.timestamp

structure SeriesView.Conforms (v : SeriesView) : Prop where
  labelsHold : v.LabelsHold
  labels : ∃ l, v.labels = .ok l ∧ l.Conform
  /-- Exactly one of samples and histograms is there. -/
  exclusive : v.samples = [] ↔ v.histograms ≠ []
  sampleTicks : Ticks (v.samples.map (·.timestamp))
  histogramTicks : Ticks (v.histograms.map (·.timestamp))
  histograms : ∀ h ∈ v.histograms, h.Conforms
  exemplarsHold : v.ExemplarsHold
  exemplars : ∃ es, v.exemplars = .ok es ∧ ∀ e ∈ es, e.Conforms
  metadataHolds : v.MetadataHolds

/-- Text 0 is the empty one, or nothing is there. -/
structure Indexed.Message.SymbolsConform (m : Indexed.Message) : Prop where
  first : m.symbols.head? = some "" ∨ m.symbols = [] ∧ m.series = []
  distinct : SymbolTable.Distinct m.symbols

structure Message.Conforms (m : Message) : Prop where
  symbols : ∀ x, m = .indexed x → x.SymbolsConform
  series : ∀ v ∈ m.series, v.Conforms

end RemoteWrite
