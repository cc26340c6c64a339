import RemoteWrite.Rules.Message

/-!
# Which checks a rule makes

Each rule makes checks of its own, whatever it judges. So the findings of one rule can be told from
those of the others by their checks (`Rules.filter_series`).
-/

namespace RemoteWrite.Rules

/-- No other checks are made. -/
def Makes (checks : List String) (findings : List Finding) : Prop :=
  ∀ f ∈ findings, f.check ∈ checks

section
variable {checks others : List String} {findings more : List Finding} {place : Location}
  {level : Level} {check text : String} {passed : Bool} {α : Type}

@[simp] theorem makes_nil : Makes checks [] := fun _ h => nomatch h

@[simp] theorem makes_append :
    Makes checks (findings ++ more) ↔ Makes checks findings ∧ Makes checks more :=
  List.forall_mem_append

@[simp] theorem makes_cons :
    Makes checks (.of place level check passed text :: findings)
      ↔ check ∈ checks ∧ Makes checks findings :=
  List.forall_mem_cons

theorem makes_flatMap {rule : α → List Finding} {as : List α}
    (h : ∀ a ∈ as, Makes checks (rule a)) : Makes checks (as.flatMap rule) := by
  intro f hf
  obtain ⟨a, ha, hf⟩ := List.mem_flatMap.mp hf
  exact h a ha f hf

theorem Makes.mono (h : Makes checks findings) (hsub : checks ⊆ others) : Makes others findings :=
  fun f hf => hsub (h f hf)

theorem Makes.filter_eq_self (h : Makes checks findings) :
    findings.filter (·.check ∈ checks) = findings := by
  rw [List.filter_eq_self]
  intro f hf
  simpa using h f hf

theorem Makes.filter_eq_nil (h : Makes checks findings) (hapart : ∀ c ∈ checks, c ∉ others) :
    findings.filter (·.check ∈ others) = [] := by
  rw [List.filter_eq_nil_iff]
  intro f hf
  simpa using hapart f.check (h f hf)

end

/-! ### The checks of each rule -/

def tickChecks (what : String) : List String :=
  [what ++ "-timestamp-millis", what ++ "-timestamps-ordered"]

def referenceChecks : List String := ["label-refs-even", "label-refs-valid"]

def labelChecks : List String := ["labels-sorted", "labels-unique", "metric-name"]

def dataChecks : List String := ["series-has-data", "samples-histograms-exclusive"]

def sampleChecks : List String :=
  tickChecks "sample" ++ ["sample-stale-marker", "created-timestamp"]

def histogramChecks : List String :=
  tickChecks "histogram"
    ++ ["histogram-count-set", "histogram-kind-consistent", "histogram-spans"]

def exemplarChecks : List String :=
  ["exemplar-refs", "exemplar-labels-length", "exemplar-timestamp"]

def metadataChecks : List String := ["metadata-refs", "metadata-present"]

def familyChecks : List String := ["metadata-family-consistent"]

theorem makes_ticks (what : String) (times : List Int64) (place : Location) :
    Makes (tickChecks what) (ticks what times place) := by
  simp [ticks, tickChecks]

theorem makes_labels (l : Labels) (place : Location) : Makes labelChecks (labels l place) := by
  simp [labels, labelChecks]

theorem makes_references (v : SeriesView) (place : Location) :
    Makes referenceChecks (references v place) := by
  cases v with
  | legacy m s => exact makes_nil
  | indexed m s => simp [references, labelRefs, referenceChecks]

theorem makes_resolvedLabels (v : SeriesView) (place : Location) :
    Makes labelChecks (resolvedLabels v place) := by
  unfold resolvedLabels
  split
  · exact makes_labels _ _
  · exact makes_nil

theorem makes_data (v : SeriesView) (place : Location) : Makes dataChecks (data v place) := by
  simp [data, dataChecks]

theorem makes_samples (xs : List Sample) (place : Location) :
    Makes sampleChecks (samples xs place) := by
  have hticks := makes_ticks "sample" (xs.map (·.timestamp)) place
  unfold samples
  simp only [makes_append]
  refine ⟨⟨hticks.mono (List.subset_append_left _ _), ?_⟩, ?_⟩
  · split <;> simp [sampleChecks]
  · split <;> simp [sampleChecks]

theorem makes_histograms (hs : List Histogram) (place : Location) :
    Makes histogramChecks (histograms hs place) := by
  have hticks := makes_ticks "histogram" (hs.map (·.timestamp)) place
  unfold histograms
  split
  · exact makes_nil
  · rw [makes_append]
    refine ⟨hticks.mono (List.subset_append_left _ _), makes_flatMap ?_⟩
    rintro ⟨h, i⟩ -
    simp [histogram, histogramChecks]

theorem makes_exemplars (v : SeriesView) (place : Location) :
    Makes exemplarChecks (exemplars v place) := by
  unfold exemplars
  split
  · simp [exemplarChecks]
  · refine makes_flatMap ?_
    rintro ⟨e, i⟩ -
    simp [exemplar, exemplarChecks]

theorem makes_metadata (v : SeriesView) (place : Location) :
    Makes metadataChecks (metadata v place) := by
  unfold metadata
  split <;> simp [metadataChecks]

theorem makes_families (m : Message) (place : Location) :
    Makes familyChecks (families m place) := by
  intro f hf
  obtain ⟨⟨family, types⟩, -, rfl⟩ := List.mem_map.mp hf
  exact List.mem_singleton.mpr rfl

/-- Only the rules for labels make their checks. -/
theorem filter_series (v : SeriesView) (place : Location) :
    (series v place).filter (·.check ∈ labelChecks) = resolvedLabels v place := by
  have hreferences : (references v place).filter (·.check ∈ labelChecks) = [] :=
    (makes_references v place).filter_eq_nil (by simp [referenceChecks, labelChecks])
  have hlabels : (resolvedLabels v place).filter (·.check ∈ labelChecks) = resolvedLabels v place :=
    (makes_resolvedLabels v place).filter_eq_self
  have hdata : (data v place).filter (·.check ∈ labelChecks) = [] :=
    (makes_data v place).filter_eq_nil (by simp [dataChecks, labelChecks])
  have hsamples : (samples v.samples place).filter (·.check ∈ labelChecks) = [] :=
    (makes_samples _ place).filter_eq_nil (by simp [sampleChecks, tickChecks, labelChecks])
  have hhistograms : (histograms v.histograms place).filter (·.check ∈ labelChecks) = [] :=
    (makes_histograms _ place).filter_eq_nil (by simp [histogramChecks, tickChecks, labelChecks])
  have hexemplars : (exemplars v place).filter (·.check ∈ labelChecks) = [] :=
    (makes_exemplars v place).filter_eq_nil (by simp [exemplarChecks, labelChecks])
  have hmetadata : (metadata v place).filter (·.check ∈ labelChecks) = [] :=
    (makes_metadata v place).filter_eq_nil (by simp [metadataChecks, labelChecks])
  simp only [series, List.filter_append, hreferences, hlabels, hdata, hsamples, hhistograms,
    hexemplars, hmetadata, List.nil_append, List.append_nil]

end RemoteWrite.Rules
