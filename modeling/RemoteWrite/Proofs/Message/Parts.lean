import RemoteWrite.Proofs.Http.Guards
import RemoteWrite.Proofs.Rules.Message
import RemoteWrite.Proofs.Series.Samples
import RemoteWrite.Proofs.Wire.Size

/-!
# How much a decoded message holds

Of what a message is made of, series, samples, histograms, exemplars and spans are messages of their
own, each with a key and a length in the bytes. So a message that was decoded holds no more than
half as many of them as its content has bytes (`Message.two_mul_parts_le`), and the content is
limited. Counts and sums of span lengths in words of 64 bits are therefore exact for whatever was
decoded (`Envelope.exact_of_message`), though the lengths of spans are anyone's choice.
-/

namespace RemoteWrite

open Wire

/-! ### Parts -/

/-- The spans of positive and of negative buckets. -/
def Histogram.numSpans (h : Histogram) : Nat := h.positiveSpans.length + h.negativeSpans.length

namespace SeriesView

def numSpans (v : SeriesView) : Nat := (v.histograms.map (·.numSpans)).sum

/-- Samples, histograms, exemplars and spans. -/
def parts (v : SeriesView) : Nat :=
  v.numSamples + v.histograms.length + v.numExemplars + v.numSpans

theorem numSpans_le {v : SeriesView} {h : Histogram} (hh : h ∈ v.histograms) :
    h.numSpans ≤ v.numSpans :=
  List.single_le_sum (fun _ _ => Nat.zero_le _) _ (List.mem_map_of_mem hh)

end SeriesView

/-- The series with everything in them. -/
def Message.parts (m : Message) : Nat := m.size + (m.series.map (·.parts)).sum

/-! ### Two bytes for each part -/

theorem Span.affords : Span.wireSchema.Affords fun _ => 0 := by
  refine Schema.affords_of_fields ?_
  simp only [wireSchema, List.Forall]
  exact ⟨.scalar Scalar.shrinks_ofVarint fun _ _ => rfl,
    .scalar Scalar.shrinks_ofVarint fun _ _ => rfl⟩

theorem Histogram.affords : Histogram.wireSchema.Affords Histogram.numSpans := by
  refine Schema.affords_of_fields ?_
  simp only [wireSchema, List.Forall]
  refine ⟨.choice Scalar.shrinks_ofVarint fun _ _ => rfl,
    .choice Scalar.shrinks_double fun _ _ => rfl, .scalar Scalar.shrinks_double fun _ _ => rfl,
    .scalar Scalar.shrinks_ofVarint fun _ _ => rfl, .scalar Scalar.shrinks_double fun _ _ => rfl,
    .choice Scalar.shrinks_ofVarint fun _ _ => rfl, .choice Scalar.shrinks_double fun _ _ => rfl,
    .messages Span.affords rfl fun b h => ?negative,
    .packed Scalar.shrinks_ofVarint fun _ _ => rfl, .packed Scalar.shrinks_double fun _ _ => rfl,
    .messages Span.affords rfl fun b h => ?positive,
    .packed Scalar.shrinks_ofVarint fun _ _ => rfl, .packed Scalar.shrinks_double fun _ _ => rfl,
    .scalar Scalar.shrinks_ofVarint fun _ _ => rfl, .scalar Scalar.shrinks_ofVarint fun _ _ => rfl,
    .packed Scalar.shrinks_double fun _ _ => rfl⟩
  case negative | positive =>
    simp only [numSpans, List.length_append, List.length_singleton]
    omega

namespace Legacy

theorem Label.affords : Label.schema.Affords fun _ => 0 := by
  refine Schema.affords_of_fields ?_
  simp only [schema, List.Forall]
  exact ⟨.text fun _ _ => rfl, .text fun _ _ => rfl⟩

theorem Sample.affords : Sample.schema.Affords fun _ => 0 := by
  refine Schema.affords_of_fields ?_
  simp only [schema, List.Forall]
  exact ⟨.scalar Scalar.shrinks_double fun _ _ => rfl,
    .scalar Scalar.shrinks_ofVarint fun _ _ => rfl⟩

theorem Exemplar.affords : Exemplar.schema.Affords fun _ => 0 := by
  refine Schema.affords_of_fields ?_
  simp only [schema, List.Forall]
  exact ⟨.messages Label.affords rfl fun _ _ => Nat.zero_le _,
    .scalar Scalar.shrinks_double fun _ _ => rfl, .scalar Scalar.shrinks_ofVarint fun _ _ => rfl⟩

/-- The parts of a series are the same in any message. -/
theorem Series.affords (m : Legacy.Message) :
    Series.schema.Affords fun s => (SeriesView.legacy m s).parts := by
  refine Schema.affords_of_fields ?_
  simp only [schema, List.Forall]
  refine ⟨.messages Label.affords rfl fun _ _ => ?labels,
    .messages Sample.affords rfl fun _ _ => ?samples,
    .messages Exemplar.affords rfl fun _ _ => ?exemplars⟩
  all_goals
    simp only [SeriesView.parts, SeriesView.numSamples, SeriesView.numExemplars,
      SeriesView.histograms, SeriesView.numSpans, List.length_append, List.length_singleton]
    omega

theorem FamilyInfo.affords : FamilyInfo.schema.Affords fun _ => 0 := by
  refine Schema.affords_of_fields ?_
  simp only [schema, List.Forall]
  exact ⟨.scalar Scalar.shrinks_ofVarint fun _ _ => rfl, .text fun _ _ => rfl,
    .text fun _ _ => rfl, .text fun _ _ => rfl⟩

theorem Message.parts_eq (m : Legacy.Message) : (RemoteWrite.Message.legacy m).parts
    = m.series.length + (m.series.map fun s => (SeriesView.legacy default s).parts).sum := by
  rw [RemoteWrite.Message.parts, RemoteWrite.Message.series, List.map_map]
  rfl

theorem Message.affords : Message.schema.Affords fun m => (RemoteWrite.Message.legacy m).parts := by
  refine Schema.affords_of_fields ?_
  simp only [schema, List.Forall, parts_eq]
  refine ⟨.messages (Series.affords default) rfl fun _ _ => ?series,
    .messages FamilyInfo.affords rfl fun _ _ => ?metadata⟩
  case series =>
    simp only [List.length_append, List.length_singleton, List.map_append, List.sum_append,
      List.map_singleton, List.sum_singleton]
    omega
  case metadata => exact Nat.le_add_right _ _

end Legacy

namespace Indexed

theorem Sample.affords : Sample.schema.Affords fun _ => 0 := by
  refine Schema.affords_of_fields ?_
  simp only [schema, List.Forall]
  exact ⟨.scalar Scalar.shrinks_double fun _ _ => rfl,
    .scalar Scalar.shrinks_ofVarint fun _ _ => rfl⟩

theorem Exemplar.affords : Exemplar.schema.Affords fun _ => 0 := by
  refine Schema.affords_of_fields ?_
  simp only [schema, List.Forall]
  exact ⟨.packed Scalar.shrinks_ofVarint fun _ _ => rfl,
    .scalar Scalar.shrinks_double fun _ _ => rfl, .scalar Scalar.shrinks_ofVarint fun _ _ => rfl⟩

theorem Metadata.affords : Metadata.schema.Affords fun _ => 0 := by
  refine Schema.affords_of_fields ?_
  simp only [schema, List.Forall]
  exact ⟨.scalar Scalar.shrinks_ofVarint fun _ _ => rfl,
    .scalar Scalar.shrinks_ofVarint fun _ _ => rfl, .scalar Scalar.shrinks_ofVarint fun _ _ => rfl⟩

theorem Series.affords (m : Indexed.Message) :
    Series.schema.Affords fun s => (SeriesView.indexed m s).parts := by
  refine Schema.affords_of_fields ?_
  simp only [schema, List.Forall]
  refine ⟨.packed Scalar.shrinks_ofVarint fun _ _ => rfl,
    .messages Sample.affords rfl fun _ _ => ?samples,
    .messages Histogram.affords rfl fun _ _ => ?histograms,
    .messages Exemplar.affords rfl fun _ _ => ?exemplars,
    .message? Metadata.affords fun _ _ => rfl,
    .scalar Scalar.shrinks_ofVarint fun _ _ => rfl⟩
  all_goals
    simp only [SeriesView.parts, SeriesView.numSamples, SeriesView.numExemplars,
      SeriesView.histograms, SeriesView.numSpans, List.length_append, List.length_singleton,
      List.map_append, List.sum_append, List.map_singleton, List.sum_singleton]
    omega

theorem Message.parts_eq (m : Indexed.Message) : (RemoteWrite.Message.indexed m).parts
    = m.series.length + (m.series.map fun s => (SeriesView.indexed default s).parts).sum := by
  rw [RemoteWrite.Message.parts, RemoteWrite.Message.series, List.map_map]
  rfl

theorem Message.affords :
    Message.schema.Affords fun m => (RemoteWrite.Message.indexed m).parts := by
  refine Schema.affords_of_fields ?_
  simp only [schema, List.Forall, parts_eq]
  refine ⟨.texts fun _ _ => rfl, .messages (Series.affords default) rfl fun _ _ => ?series⟩
  simp only [List.length_append, List.length_singleton, List.map_append, List.sum_append,
    List.map_singleton, List.sum_singleton]
  omega

end Indexed

namespace Message

theorem two_mul_parts_le {version : Version} {bytes : Bytes} {m : Message}
    (h : read version bytes = .ok m) : 2 * m.parts ≤ bytes.length := by
  cases version with
  | legacy =>
    obtain ⟨x, hx⟩ := exists_map_iff.mp ⟨m, h⟩
    rw [read, hx] at h
    cases h
    exact Legacy.Message.affords.read rfl hx
  | indexed =>
    obtain ⟨x, hx⟩ := exists_map_iff.mp ⟨m, h⟩
    rw [read, hx] at h
    cases h
    exact Indexed.Message.affords.read rfl hx

end Message

/-! ### Sums in words of 64 bits -/

/-- The buckets that the spans cover. -/
def Span.total (spans : List Span) : Nat := (spans.map (·.length.toNat)).sum

/-- The lengths of the spans are added exactly, and the only finding about spans passes exactly if
they cover as many buckets as there are. -/
structure Histogram.SpansExact (h : Histogram) : Prop where
  positive : (Rules.spanLength h.positiveSpans).toNat = Span.total h.positiveSpans
  negative : (Rules.spanLength h.negativeSpans).toNat = Span.total h.negativeSpans
  judged : ∀ i place, ∃ f,
    (Rules.histogram h i place).filter (·.check = "histogram-spans") = [f] ∧
      (f.passed = true ↔
        Rules.bucketCounts h = (Span.total h.positiveSpans, Span.total h.negativeSpans))

theorem Span.toNat_spanLength_eq {spans : List Span} (h : spans.length < 2 ^ 32) :
    (Rules.spanLength spans).toNat = total spans := by
  rw [Rules.toNat_spanLength, total, ← (cover_iff h).mp rfl]

theorem Histogram.spansExact {h : Histogram} (hspans : h.numSpans < 2 ^ 32) : h.SpansExact := by
  unfold numSpans at hspans
  have hpositive : (Rules.spanLength h.positiveSpans).toNat = Span.total h.positiveSpans :=
    Span.toNat_spanLength_eq (by omega)
  have hnegative : (Rules.spanLength h.negativeSpans).toNat = Span.total h.negativeSpans :=
    Span.toNat_spanLength_eq (by omega)
  have hpassed : (decide ((Rules.bucketCounts h).1 = (Rules.spanLength h.positiveSpans).toNat) &&
      decide ((Rules.bucketCounts h).2 = (Rules.spanLength h.negativeSpans).toNat)) = true ↔
        Rules.bucketCounts h = (Span.total h.positiveSpans, Span.total h.negativeSpans) := by
    rw [Bool.and_eq_true, decide_eq_true_iff, decide_eq_true_iff, hpositive, hnegative,
      Prod.ext_iff]
  exact ⟨hpositive, hnegative, fun _ _ => ⟨_, rfl, hpassed⟩⟩

namespace Message

/-- What is counted in the message in words of 64 bits is as many as there are. -/
structure Exact (m : Message) : Prop where
  samples : m.counts.samples.toNat = (m.series.map (·.numSamples)).sum
  histograms : m.counts.histograms.toNat = (m.series.map (·.histograms.length)).sum
  exemplars : m.counts.exemplars.toNat = (m.series.map (·.numExemplars)).sum
  total : m.counts.sum.toNat
    = (m.series.map fun v => v.numSamples + v.histograms.length + v.numExemplars).sum
  spans : ∀ v ∈ m.series, ∀ h ∈ v.histograms, h.SpansExact

variable {m : Message}

theorem toNat_counts (get : Counts → UInt64) (hadd : ∀ a b, get (a + b) = get a + get b)
    (hzero : get .zero = 0) {num : SeriesView → Nat}
    (hnum : ∀ v, get v.counts = UInt64.ofNat (num v)) (hle : ∀ v, num v ≤ v.parts)
    (hm : m.parts < 2 ^ 64) : (get m.counts).toNat = (m.series.map num).sum := by
  have hsum : (m.series.map num).sum ≤ m.parts :=
    (List.sum_le_sum fun v _ => hle v).trans (Nat.le_add_left _ _)
  rw [counts, get_foldl_counts get hadd hnum, hzero, UInt64.zero_add,
    UInt64.toNat_ofNat_of_lt' (hsum.trans_lt hm)]

theorem exact_of_parts_lt (hm : m.parts < 2 ^ 32) : m.Exact where
  samples := toNat_counts _ (fun _ _ => rfl) rfl (fun _ => rfl)
    (fun v => by unfold SeriesView.parts; omega) (by omega)
  histograms := toNat_counts _ (fun _ _ => rfl) rfl (fun _ => rfl)
    (fun v => by unfold SeriesView.parts; omega) (by omega)
  exemplars := toNat_counts _ (fun _ _ => rfl) rfl (fun _ => rfl)
    (fun v => by unfold SeriesView.parts; omega) (by omega)
  total := by
    refine toNat_counts Counts.sum (fun a b => ?_) rfl (fun v => ?_)
      (fun v => by unfold SeriesView.parts; omega) (by omega)
    · show a.samples + b.samples + (a.histograms + b.histograms) + (a.exemplars + b.exemplars)
        = a.samples + a.histograms + a.exemplars + (b.samples + b.histograms + b.exemplars)
      ac_rfl
    · simp only [UInt64.ofNat_add]
      rfl
  spans v hv h hh := by
    have hview : v.parts ≤ (m.series.map (·.parts)).sum :=
      List.single_le_sum (fun _ _ => Nat.zero_le _) _ (List.mem_map_of_mem hv)
    have hspans : h.numSpans ≤ v.parts :=
      (SeriesView.numSpans_le hh).trans (Nat.le_add_left _ _)
    exact Histogram.spansExact
      (Nat.lt_of_le_of_lt (hspans.trans (hview.trans (Nat.le_add_left _ _))) hm)

end Message

/-- Whatever was decoded from a content is counted exactly, and each of its parts took two bytes. -/
theorem Envelope.exact_of_message {e : Envelope} {version : Version} {m : Message}
    (h : e.message version = .ok m) :
    ∃ content, e.content = .ok content ∧ 2 * m.parts ≤ content.length ∧ m.Exact := by
  obtain ⟨content, hcontent, hread⟩ := exists_of_bind_eq_ok h
  have hparts : 2 * m.parts ≤ content.length := by
    split at hread
    · cases hread
    · next message hmessage =>
      cases hread
      exact Message.two_mul_parts_le hmessage
  have hlimit : content.length ≤ 67108864 := (content_limits Snappy.lawful_decoder hcontent).2
  exact ⟨content, hcontent, hparts, Message.exact_of_parts_lt (by omega)⟩

/-- A histogram with two spans of almost `2 ^ 32` buckets each. -/
def Envelope.hugeSpans : Envelope where
  headers := .empty
  body := [0x2a, 0x14, 0x1a, 0x12, 0x42, 0, 0x5a, 0x06, 0x10, 0xff, 0xff, 0xff, 0xff, 0x0f,
    0x5a, 0x06, 0x10, 0xff, 0xff, 0xff, 0xff, 0x0f].toByteArray

theorem Envelope.exact_hugeSpans : ∃ m, hugeSpans.message .indexed = .ok m ∧ m.parts = 5 ∧
    ∃ content, hugeSpans.content = .ok content ∧ 2 * m.parts ≤ content.length ∧ m.Exact := by
  have hm : hugeSpans.message .indexed = .ok (.indexed ⟨[], [⟨[], [], [⟨none, .zero, 0, .zero,
      none, [⟨0, 0⟩], [], [], [⟨0, 4294967295⟩, ⟨0, 4294967295⟩], [], [], 0, 0, []⟩], [], none,
      0⟩]⟩) := by
    cbv
  exact ⟨_, hm, rfl, exact_of_message hm⟩

end RemoteWrite
