import RemoteWrite.Proofs.Neighbours
import RemoteWrite.Proofs.Rules.Conformance
import RemoteWrite.Proofs.Series.Labels

/-!
# The rules for a message say whether it conforms

`Rules.passed_message_iff`: a message passes its rules exactly if it conforms. Each rule has one
lemma that says when its findings are clean. Rules that are skipped, since something does not
resolve, are skipped only where another finding is a violation already.
-/

namespace RemoteWrite.Rules

/-- None of the findings is a violation. -/
def Clean (findings : List Finding) : Prop := ∀ f ∈ findings, f.isViolation = false

section
variable {place : Location} {level : Level} {check text : String} {passed : Bool}
  {findings more : List Finding} {α : Type}

theorem clean_nil : Clean [] := fun _ h => nomatch h

theorem clean_append : Clean (findings ++ more) ↔ Clean findings ∧ Clean more :=
  List.forall_mem_append

theorem clean_cons_must :
    Clean (.of place .must check passed text :: findings) ↔ passed = true ∧ Clean findings := by
  rw [Clean, List.forall_mem_cons]
  exact and_congr_left' (by cases passed <;> simp [Finding.isViolation, Finding.failed, Finding.of])

theorem clean_cons_of_ne (h : level ≠ .must) :
    Clean (.of place level check passed text :: findings) ↔ Clean findings := by
  rw [Clean, List.forall_mem_cons]
  exact and_iff_right (by simp [Finding.isViolation, Finding.of, h])

theorem clean_singleton_of_ne (h : level ≠ .must) : Clean [.of place level check passed text] :=
  (clean_cons_of_ne h).mpr clean_nil

theorem clean_singleton_must : Clean [.of place .must check passed text] ↔ passed = true := by
  rw [clean_cons_must, and_iff_left clean_nil]

/-- A rule that is applied element by element, with the position for its findings only. -/
theorem clean_flatMap_zipIdx {as : List α} {rule : α × Nat → List Finding} {P : α → Prop}
    (h : ∀ a i, Clean (rule (a, i)) ↔ P a) : Clean (as.zipIdx.flatMap rule) ↔ ∀ a ∈ as, P a := by
  constructor
  · intro hc a ha
    obtain ⟨i, hi⟩ := List.mem_iff_getElem?.mp ha
    refine (h a i).mp fun f hf => hc f (List.mem_flatMap.mpr ⟨(a, i), ?_, hf⟩)
    exact List.mem_zipIdx_iff_getElem?.mpr hi
  · intro hP f hf
    obtain ⟨⟨a, i⟩, hai, hf⟩ := List.mem_flatMap.mp hf
    refine (h a i).mpr (hP a ?_) f hf
    exact List.mem_of_getElem? (List.mem_zipIdx_iff_getElem?.mp hai)

theorem passed_iff_clean : (⟨findings⟩ : Report).passed = true ↔ Clean findings := by
  rw [Report.passed, Report.failures, List.isEmpty_iff, List.filter_eq_nil_iff]
  simp only [Bool.not_eq_true, Clean]

end

section
variable {place : Location}

/-! ### Symbols and references -/

theorem clean_symbols {table : SymbolTable} {n : Nat} :
    Clean (symbols table n place) ↔
      (table.head? = some "" ∨ table = [] ∧ n = 0) ∧ table.Distinct := by
  unfold symbols
  have hrest (s : String) : Clean [.of place .must "symbols-unique" table.repeats.isEmpty s]
      ↔ table.Distinct := by
    rw [clean_singleton_must, List.isEmpty_iff, SymbolTable.repeats_eq_nil]
  cases table with
  | nil => simp only [List.head?_nil, clean_cons_must, hrest]; simp
  | cons s table => simp only [List.head?_cons, clean_cons_must, hrest]; simp

theorem firstInvalid?_eq_none {refs : List UInt32} {size : Nat} :
    firstInvalid? refs size = none ↔ ∀ r ∈ refs, r.toNat < size := by
  rw [firstInvalid?, List.find?_eq_none]
  constructor
  · intro h r hr
    obtain ⟨i, hi⟩ := List.mem_iff_getElem?.mp hr
    simpa using h (r, i) (List.mem_zipIdx_iff_getElem?.mpr hi)
  · rintro h ⟨r, i⟩ hri
    simpa using h r (List.mem_of_getElem? (List.mem_zipIdx_iff_getElem?.mp hri))

theorem clean_labelRefs {table : SymbolTable} {refs : List UInt32} :
    Clean (labelRefs refs table.length place) ↔ table.Holds refs := by
  unfold labelRefs
  rw [clean_cons_must, clean_singleton_must, decide_eq_true_iff, Option.isNone_iff_eq_none,
    firstInvalid?_eq_none, SymbolTable.Holds]

theorem clean_labels {l : Labels} : Clean (labels l place) ↔ l.Conform := by
  unfold labels
  have hnamed : decide (l.metric?.getD "" ≠ "") = true ↔ ∃ name, l.metric? = some name ∧ name ≠ "" := by
    cases l.metric? <;> simp
  have hnames : (l.names.Pairwise fun a b => Text.lt a b = true) ↔
      l.names.Pairwise fun a b => Text.bytes a < Text.bytes b := by
    simp only [Text.lt_iff]
  rw [clean_cons_must, clean_cons_must, clean_singleton_must, List.isEmpty_iff, hnamed, ← and_assoc,
    ← Labels.pairwise_lt_iff, hnames]
  exact ⟨fun h => ⟨h.1, h.2⟩, fun h => ⟨h.ascending, h.named⟩⟩

/-! ### Times -/

theorem isMillisecond_iff {t : Int64} : isMillisecond t = true ↔ Millis t := by
  rw [isMillisecond, Bool.and_eq_true, decide_eq_true_iff, decide_eq_true_iff, Int64.le_iff_toInt_le,
    Int64.le_iff_toInt_le]
  rfl

theorem firstRegression?_eq_none {times : List Int64} :
    firstRegression? times = none ↔ times.Pairwise (· ≤ ·) := by
  rw [firstRegression?, Option.map_eq_none_iff, List.findIdx?_eq_none_iff,
    ← forall_neighbours_iff_pairwise fun (a b c : Int64) (hab : a ≤ b) (hbc : b ≤ c) =>
      Int64.le_trans hab hbc]
  simp only [decide_eq_false_iff_not, Int64.not_lt]

theorem clean_ticks {what : String} {times : List Int64} :
    Clean (ticks what times place) ↔ Ticks times := by
  unfold ticks
  rw [clean_cons_must, clean_singleton_must, Option.isNone_iff_eq_none, Option.isNone_iff_eq_none,
    firstRegression?_eq_none, List.find?_eq_none]
  simp only [Bool.not_eq_true', Bool.not_eq_false, isMillisecond_iff]
  exact ⟨fun h => ⟨h.1, h.2⟩, fun h => ⟨h.millis, h.ordered⟩⟩

theorem clean_samples {xs : List Sample} :
    Clean (samples xs place) ↔ Ticks (xs.map (·.timestamp)) := by
  unfold samples
  rw [clean_append, clean_append, clean_ticks, and_assoc]
  refine and_iff_left ⟨?_, ?_⟩
  · split
    · exact clean_singleton_of_ne (by decide)
    · exact clean_nil
  · split
    · exact clean_singleton_of_ne (by decide)
    · exact clean_nil

/-! ### Histograms -/

theorem toNat_spanLength (spans : List Span) :
    (spanLength spans).toNat = (spans.map (·.length.toNat)).sum % 2 ^ 64 := by
  have hfold : ∀ (spans : List Span) (n : UInt64),
      ((spans.map (·.length.toUInt64)).foldl (· + ·) n).toNat
        = (n.toNat + (spans.map (·.length.toNat)).sum) % 2 ^ 64 := by
    intro spans
    induction spans with
    | nil => exact fun n => (Nat.mod_eq_of_lt n.toNat_lt).symm
    | cons s spans ih =>
      intro n
      simp only [List.map_cons, List.foldl_cons, ih, UInt64.toNat_add, UInt32.toNat_toUInt64,
        List.sum_cons]
      rw [Nat.mod_add_mod, Nat.add_assoc]
  rw [spanLength, hfold, UInt64.toNat_zero, Nat.zero_add]

theorem isKindConsistent_iff {h : Histogram} :
    isKindConsistent h = true ↔
      (∀ x, h.count = some (.double x) → ∀ n, h.zeroCount ≠ some (.whole n)) ∧
        ∀ n, h.count = some (.whole n) → ∀ x, h.zeroCount ≠ some (.double x) := by
  unfold isKindConsistent
  rcases h.count with _ | _ | _ <;> rcases h.zeroCount with _ | _ | _ <;> simp

theorem usesDoubles_iff {h : Histogram} :
    h.usesDoubles = true ↔ ∃ x, h.count = some (.double x) := by
  unfold Histogram.usesDoubles
  rcases h.count with _ | _ | _ <;> simp

theorem bucketCounts_iff {h : Histogram} :
    ((bucketCounts h).1 = (spanLength h.positiveSpans).toNat ∧
        (bucketCounts h).2 = (spanLength h.negativeSpans).toNat) ↔
      ((∃ x, h.count = some (.double x)) →
        Span.Cover h.positiveSpans h.positiveCounts.length ∧
          Span.Cover h.negativeSpans h.negativeCounts.length) ∧
      ((¬ ∃ x, h.count = some (.double x)) →
        Span.Cover h.positiveSpans h.positiveDeltas.length ∧
          Span.Cover h.negativeSpans h.negativeDeltas.length) := by
  rw [← usesDoubles_iff, bucketCounts, toNat_spanLength, toNat_spanLength]
  simp only [Span.Cover]
  split
  · next hd => simp only [hd, true_implies, not_true_eq_false, false_implies, and_true, eq_comm]
  · next hd =>
    simp only [eq_false hd, false_implies, not_false_eq_true, true_implies, true_and, eq_comm]

theorem clean_histogram (h : Histogram) (i : Nat) :
    Clean (histogram h i place) ↔ h.Conforms := by
  unfold histogram
  rw [clean_cons_of_ne (by decide), clean_cons_must, clean_singleton_must, isKindConsistent_iff,
    Bool.and_eq_true, decide_eq_true_iff, decide_eq_true_iff, bucketCounts_iff]
  constructor
  · rintro ⟨⟨hdouble, hwhole⟩, hcounts, hdeltas⟩
    exact ⟨hdouble, hwhole, hcounts, hdeltas⟩
  · intro hc
    exact ⟨⟨hc.double, hc.whole⟩, hc.counts, hc.deltas⟩

theorem ticks_nil : Ticks [] := ⟨fun _ h => (nomatch h), .nil⟩

theorem clean_histograms {hs : List Histogram} :
    Clean (histograms hs place) ↔ Ticks (hs.map (·.timestamp)) ∧ ∀ h ∈ hs, h.Conforms := by
  unfold histograms
  split
  · next hnil =>
    rw [List.isEmpty_iff.mp hnil]
    exact iff_of_true clean_nil ⟨ticks_nil, fun _ h => nomatch h⟩
  · rw [clean_append, clean_ticks, clean_flatMap_zipIdx clean_histogram]

/-! ### Exemplars and metadata -/

theorem clean_exemplar (e : Exemplar) (i : Nat) : Clean (exemplar e i place) ↔ e.Conforms := by
  unfold exemplar
  rw [clean_cons_must, clean_singleton_must, decide_eq_true_iff, isMillisecond_iff]
  exact ⟨fun h => ⟨h.1, h.2⟩, fun h => ⟨h.runes, h.millis⟩⟩

theorem clean_exemplars {v : SeriesView} :
    Clean (exemplars v place) ↔ ∃ es, v.exemplars = .ok es ∧ ∀ e ∈ es, e.Conforms := by
  unfold exemplars
  cases v.exemplars with
  | error e =>
    simp only [clean_singleton_must]
    exact iff_of_false (fun h => nomatch h) fun ⟨_, h, _⟩ => nomatch h
  | ok es =>
    rw [clean_flatMap_zipIdx clean_exemplar]
    simp only [Except.ok.injEq, exists_eq_left']

theorem clean_metadata {v : SeriesView} : Clean (metadata v place) ↔ v.MetadataHolds := by
  rw [← SeriesView.exists_metadata_iff]
  unfold metadata
  rcases v.metadata with e | _ | d
  · exact iff_of_false (fun h => nomatch clean_singleton_must.mp h) fun ⟨_, h⟩ => nomatch h
  · refine iff_of_true ?_ ⟨_, rfl⟩
    cases v with
    | legacy m s => exact clean_nil
    | indexed m s => exact clean_singleton_of_ne (by decide)
  · exact iff_of_true clean_nil ⟨_, rfl⟩

/-! ### Series -/

theorem clean_references {v : SeriesView} : Clean (references v place) ↔ v.LabelsHold := by
  cases v with
  | legacy m s => exact iff_of_true clean_nil trivial
  | indexed m s => exact clean_labelRefs

theorem clean_resolvedLabels {v : SeriesView} :
    Clean (resolvedLabels v place) ↔ ∀ l, v.labels = .ok l → l.Conform := by
  unfold resolvedLabels
  cases v.labels with
  | error e => exact iff_of_true clean_nil fun _ h => nomatch h
  | ok l => simp only [clean_labels, Except.ok.injEq, forall_eq']

theorem clean_data {v : SeriesView} :
    Clean (data v place) ↔ (v.samples = [] ↔ v.histograms ≠ []) := by
  unfold data
  rw [clean_cons_must, clean_singleton_must, ← List.length_eq_zero_iff, SeriesView.length_samples,
    ← List.isEmpty_eq_false_iff, SeriesView.mixes]
  cases v.histograms.isEmpty <;> simp
  omega

/-- Where the label references hold the label rules are applied. -/
theorem clean_labels_of_view {v : SeriesView} :
    (v.LabelsHold ∧ ∀ l, v.labels = .ok l → l.Conform) ↔
      v.LabelsHold ∧ ∃ l, v.labels = .ok l ∧ l.Conform := by
  refine and_congr_right fun hrefs => ?_
  obtain ⟨l, hl⟩ := SeriesView.exists_labels_iff.mpr hrefs
  simp only [hl, Except.ok.injEq, forall_eq', exists_eq_left']

theorem clean_series (v : SeriesView) (i : Nat) :
    Clean (series v (place.atSeries i)) ↔ v.Conforms := by
  unfold series
  rw [clean_append, clean_append, clean_append, clean_append, clean_append, clean_append,
    clean_references, clean_resolvedLabels, clean_labels_of_view, clean_data, clean_samples,
    clean_histograms, clean_exemplars, clean_metadata]
  constructor
  · rintro ⟨⟨⟨⟨⟨⟨hrefs, hlabels⟩, hdata⟩, hsamples⟩, hticks, hhists⟩, hexemplars⟩, hmeta⟩
    obtain ⟨es, hes, -⟩ := id hexemplars
    exact ⟨hrefs, hlabels, hdata, hsamples, hticks, hhists,
      SeriesView.exists_exemplars_iff.mp ⟨es, hes⟩, hexemplars, hmeta⟩
  · intro h
    exact ⟨⟨⟨⟨⟨⟨h.labelsHold, h.labels⟩, h.exclusive⟩, h.sampleTicks⟩, h.histogramTicks,
      h.histograms⟩, h.exemplars⟩, h.metadataHolds⟩

/-! ### Messages -/

theorem clean_table {m : Message} :
    Clean (table m place) ↔ ∀ x, m = .indexed x → x.SymbolsConform := by
  cases m with
  | legacy x => exact iff_of_true clean_nil fun _ h => nomatch h
  | indexed x =>
    simp only [Message.indexed.injEq, forall_eq', table, clean_symbols, List.length_eq_zero_iff]
    exact ⟨fun h => ⟨h.1, h.2⟩, fun h => ⟨h.first, h.distinct⟩⟩

theorem clean_families (m : Message) : Clean (families m place) := by
  intro f hf
  obtain ⟨⟨family, types⟩, -, rfl⟩ := List.mem_map.mp hf
  exact clean_singleton_of_ne (by decide) _ List.mem_cons_self

end

/-- The report has no violation exactly if the message conforms. -/
theorem passed_message_iff (m : Message) (place : Location) :
    (⟨message m place⟩ : Report).passed = true ↔ m.Conforms := by
  rw [passed_iff_clean]
  unfold message
  rw [clean_append, clean_append, and_iff_left (clean_families m), clean_table,
    clean_flatMap_zipIdx clean_series]
  exact ⟨fun h => ⟨h.1, h.2⟩, fun h => ⟨h.symbols, h.series⟩⟩

end RemoteWrite.Rules
