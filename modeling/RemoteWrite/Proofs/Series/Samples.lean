import RemoteWrite.Proofs.Message.RoundTrip
import RemoteWrite.Proofs.Series.View

/-!
# The samples of a message

All samples of a message with the labels of their series. Each takes a byte at least, so the count
of 64 bits that a message reports is exact for what is not too long to be sent.
-/

namespace RemoteWrite

open Wire

/-- The samples of a series, each with the labels of the series. -/
def SeriesView.labelledSamples (v : SeriesView) : List (Except Error Labels × Binary64 × Int64) :=
  v.samples.map fun s => (v.labels, s.value, s.timestamp)

namespace Message

/-- The samples of a message in the order of its series. -/
def labelledSamples (m : Message) : List (Except Error Labels × Binary64 × Int64) :=
  m.series.flatMap (·.labelledSamples)

theorem version_plusZeros (m : Message) : m.plusZeros.version = m.version := by cases m <;> rfl

/-- Labels are kept, and values but for the sign of zeros. -/
theorem labelledSamples_plusZeros (m : Message) :
    m.plusZeros.labelledSamples
      = m.labelledSamples.map fun s => (s.1, s.2.1.plusZero, s.2.2) := by
  cases m with
  | legacy m =>
    show ((m.series.map (·.plusZeros)).map (SeriesView.legacy m.plusZeros)).flatMap _
      = ((m.series.map (SeriesView.legacy m)).flatMap _).map _
    rw [List.map_map, List.flatMap_map, List.flatMap_map, List.map_flatMap]
    refine List.flatMap_congr fun s _ => ?_
    simp [SeriesView.labelledSamples, SeriesView.samples, SeriesView.labels,
      Legacy.Series.plusZeros, Legacy.Sample.plusZeros]
  | indexed m =>
    show ((m.series.map (·.plusZeros)).map (SeriesView.indexed m.plusZeros)).flatMap _
      = ((m.series.map (SeriesView.indexed m)).flatMap _).map _
    rw [List.map_map, List.flatMap_map, List.flatMap_map, List.map_flatMap]
    refine List.flatMap_congr fun s _ => ?_
    simp [SeriesView.labelledSamples, SeriesView.samples, SeriesView.labels,
      Indexed.Message.plusZeros, Indexed.Series.plusZeros, Indexed.Sample.plusZeros]

theorem length_labelledSamples (m : Message) :
    m.labelledSamples.length = (m.series.map (·.numSamples)).sum := by
  rw [labelledSamples, List.length_flatMap]
  refine congrArg List.sum (List.map_congr_left fun v _ => ?_)
  rw [SeriesView.labelledSamples, List.length_map, SeriesView.length_samples]

/-- Counts are added one by one, each in its word. -/
theorem get_foldl_counts (get : Counts → UInt64) (hadd : ∀ a b, get (a + b) = get a + get b)
    {num : SeriesView → Nat} (hnum : ∀ v, get v.counts = UInt64.ofNat (num v))
    (views : List SeriesView) (c : Counts) :
    get ((views.map SeriesView.counts).foldl (· + ·) c)
      = get c + UInt64.ofNat (views.map num).sum := by
  induction views generalizing c with
  | nil => exact (UInt64.add_zero _).symm
  | cons v views ih =>
    rw [List.map_cons, List.foldl_cons, ih, hadd, hnum, List.map_cons, List.sum_cons,
      UInt64.ofNat_add, ← UInt64.add_assoc]

theorem counts_samples (m : Message) :
    m.counts.samples = UInt64.ofNat m.labelledSamples.length := by
  rw [counts, get_foldl_counts Counts.samples (fun _ _ => rfl) fun _ => rfl, length_labelledSamples]
  exact UInt64.zero_add _

/-! ### How many samples some bytes may hold -/

theorem length_samples_le_legacy (s : Legacy.Series) :
    s.samples.length ≤ (Legacy.Series.schema.write s).length :=
  Nat.le_trans (Field.length_le_messages s) (Schema.length_field_le (.tail _ (.head _)) s)

theorem length_samples_le_indexed (s : Indexed.Series) :
    s.samples.length ≤ (Indexed.Series.schema.write s).length :=
  Nat.le_trans (Field.length_le_messages s) (Schema.length_field_le (.tail _ (.head _)) s)

theorem length_labelledSamples_le (m : Message) : m.labelledSamples.length ≤ m.write.length := by
  rw [length_labelledSamples]
  cases m with
  | legacy m =>
    rw [series, List.map_map]
    exact Nat.le_trans (List.sum_le_sum fun s _ => Nat.le_succ_of_le (length_samples_le_legacy s))
      (Nat.le_trans (Field.sum_le_messages m) (Schema.length_field_le (.head _) m))
  | indexed m =>
    rw [series, List.map_map]
    exact Nat.le_trans (List.sum_le_sum fun s _ => Nat.le_succ_of_le (length_samples_le_indexed s))
      (Nat.le_trans (Field.sum_le_messages m) (Schema.length_field_le (.tail _ (.head _)) m))

end Message

end RemoteWrite
