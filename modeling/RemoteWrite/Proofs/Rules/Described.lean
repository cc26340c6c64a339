import RemoteWrite.Proofs.Rules.Building
import RemoteWrite.Proofs.Rules.Checks
import RemoteWrite.Proofs.Rules.Message

/-!
# A message says what was described

Every series of a message of the indexed version resolves, and gives what its description says of
it, however the labels are ordered or repeated (`Message.keeps_ofSpecs`). So the rules that ask
whether a message hangs together find no fault with one that was built, whatever they find in what
was described.
-/

namespace RemoteWrite

/-! ### Sorted labels -/

/-- The pairs by the bytes of their names; pairs of one name keep their order. -/
structure Labels.SortOf (l : Labels) (pairs : LabelList) : Prop where
  perm : l.pairs.Perm pairs
  ascending : l.names.Pairwise fun a b => Text.bytes a ≤ Text.bytes b
  stable : ∀ name, l.pairs.filter (·.1 = name) = pairs.filter (·.1 = name)

/-- The pairs of one name are in order as they are given, so that they are a sublist of the sorted
ones; and there are no more of them. -/
theorem SeriesSpec.filter_labelsByName (s : SeriesSpec) (name : String) :
    s.labelsByName.filter (·.1 = name) = s.labels.filter (·.1 = name) := by
  have hclass : (s.labels.filter (·.1 = name)).Pairwise fun a b => Text.le a.1 b.1 = true := by
    refine List.pairwise_of_forall_mem_list fun a ha b hb => ?_
    have ha : a.1 = name := by simpa using (List.mem_filter.mp ha).2
    have hb : b.1 = name := by simpa using (List.mem_filter.mp hb).2
    rw [ha, hb]
    exact Text.le_iff.mpr (List.le_refl _)
  have hsub : (s.labels.filter (·.1 = name)).Sublist s.labelsByName :=
    List.sublist_mergeSort (fun a b c => Text.le_trans a.1 b.1 c.1)
      (fun a b => Text.le_total a.1 b.1) hclass List.filter_sublist
  have hfilter : (s.labels.filter (·.1 = name)).Sublist (s.labelsByName.filter (·.1 = name)) := by
    simpa using hsub.filter (·.1 = name)
  exact (hfilter.eq_of_length (s.perm_labelsByName.filter _).length_eq.symm).symm

theorem SeriesSpec.sortOf_labelsByName (s : SeriesSpec) :
    (Labels.mk s.labelsByName).SortOf s.labels where
  perm := s.perm_labelsByName
  ascending := List.pairwise_map.mpr (s.pairwise_labelsByName.imp Text.le_iff.mp)
  stable := s.filter_labelsByName

/-! ### Series -/

/-- The created timestamp, where 0 means that there is none. -/
def SeriesSpec.created? (s : SeriesSpec) : Option Int64 :=
  if s.createdTimestamp = 0 then none else some s.createdTimestamp

/-- The view resolves to what the description says. -/
structure SeriesView.Keeps (v : SeriesView) (s : SeriesSpec) : Prop where
  labels : ∃ l, v.labels = .ok l ∧ l.SortOf s.labels
  samples : v.samples = s.samples.map fun x => ⟨x.value, x.timestamp, s.created?⟩
  histograms : v.histograms = s.histograms
  exemplars : v.exemplars = .ok (s.exemplars.map ExemplarSpec.view)
  metadata : v.metadata = .ok (s.metadata.map Metadata.withoutEmpty)

theorem Indexed.Builds.keeps {m : Message} {s : SeriesSpec} {built : Series}
    (h : Builds m.symbols s built) : (SeriesView.indexed m built).Keeps s where
  labels := ⟨_, h.shows.labels, s.sortOf_labelsByName⟩
  samples := by simp [SeriesView.samples, h.samples, h.created, SeriesSpec.created?]
  histograms := h.histograms
  exemplars := h.shows.exemplars
  metadata := metadata_of_builds h

/-! ### Rules that find no fault -/

namespace Rules

/-- The checks that ask whether a message hangs together. -/
def coherence : List String :=
  ["symbols-empty-first", "symbols-unique", "label-refs-even", "label-refs-valid", "labels-sorted",
    "exemplar-refs", "metadata-refs"]

/-- None of these checks failed. -/
def Passes (checks : List String) (findings : List Finding) : Prop :=
  ∀ f ∈ findings, f.check ∈ checks → f.passed = true

section
variable {checks : List String} {findings more : List Finding} {place : Location} {level : Level}
  {check text : String} {passed : Bool} {α : Type}

@[simp] theorem passes_nil : Passes checks [] := fun _ h => nomatch h

@[simp] theorem passes_append :
    Passes checks (findings ++ more) ↔ Passes checks findings ∧ Passes checks more :=
  List.forall_mem_append

@[simp] theorem passes_cons :
    Passes checks (.of place level check passed text :: findings)
      ↔ (check ∈ checks → passed = true) ∧ Passes checks findings :=
  List.forall_mem_cons

theorem passes_flatMap {rule : α → List Finding} {as : List α}
    (h : ∀ a ∈ as, Passes checks (rule a)) : Passes checks (as.flatMap rule) := by
  intro f hf
  obtain ⟨a, ha, hf⟩ := List.mem_flatMap.mp hf
  exact h a ha f hf

/-- A rule that makes none of the checks fails none of them. -/
theorem passes_of_makes {others : List String} (h : Makes others findings)
    (hapart : ∀ c ∈ others, c ∉ checks) : Passes checks findings :=
  fun f hf hc => absurd hc (hapart f.check (h f hf))

/-- Where all findings are of MUST rules a failure is a violation. -/
theorem passes_of_clean (h : Clean findings) (hmust : ∀ f ∈ findings, f.level = .must) :
    Passes checks findings := by
  intro f hf _
  simpa [Finding.isViolation, Finding.failed, hmust f hf] using h f hf

end

section
variable {place : Location}

/-! Rules that make none of the checks. -/

theorem passes_data (v : SeriesView) : Passes coherence (data v place) :=
  passes_of_makes (makes_data v place) (by simp [dataChecks, coherence])

theorem passes_samples (xs : List Sample) : Passes coherence (samples xs place) :=
  passes_of_makes (makes_samples xs place) (by simp [sampleChecks, tickChecks, coherence])

theorem passes_histograms (hs : List Histogram) : Passes coherence (histograms hs place) :=
  passes_of_makes (makes_histograms hs place) (by simp [histogramChecks, tickChecks, coherence])

theorem passes_families (m : Message) : Passes coherence (families m place) :=
  passes_of_makes (makes_families m place) (by simp [familyChecks, coherence])

/-! Rules that make some of them. -/

theorem passes_labels {l : Labels} (h : l.isAscending = true) :
    Passes coherence (labels l place) := by
  simp [labels, coherence, h]

theorem passes_references {v : SeriesView} (h : v.LabelsHold) :
    Passes coherence (references v place) := by
  refine passes_of_clean (clean_references.mpr h) ?_
  cases v with
  | legacy m s => exact fun _ hf => nomatch hf
  | indexed m s => simp [references, labelRefs, Finding.of]

theorem passes_exemplars {v : SeriesView} {es : List Exemplar} (h : v.exemplars = .ok es) :
    Passes coherence (exemplars v place) := by
  simp only [exemplars, h]
  refine passes_flatMap ?_
  rintro ⟨e, i⟩ -
  simp [exemplar, coherence]

theorem passes_metadata {v : SeriesView} {d : Option Metadata} (h : v.metadata = .ok d) :
    Passes coherence (metadata v place) := by
  simp only [metadata, h]
  rcases d with _ | d
  · cases v <;> simp [coherence]
  · exact passes_nil

theorem passes_table {m : Message} (h : ∀ x, m = .indexed x → x.SymbolsConform) :
    Passes coherence (table m place) := by
  refine passes_of_clean (clean_table.mpr h) ?_
  cases m with
  | legacy x => exact fun _ hf => nomatch hf
  | indexed x =>
    simp only [table, symbols]
    cases x.symbols.head? <;> simp [Finding.of]

theorem passes_series {v : SeriesView} {s : SeriesSpec} (h : v.Keeps s) :
    Passes coherence (series v place) := by
  obtain ⟨l, hl, hsort⟩ := h.labels
  have hascending : l.isAscending = true :=
    Labels.isAscending_iff.mpr (hsort.ascending.imp Text.le_iff.mpr)
  have hlabels : Passes coherence (resolvedLabels v place) := by
    rw [resolvedLabels, hl]
    exact passes_labels hascending
  have hrefs : v.LabelsHold := SeriesView.exists_labels_iff.mp ⟨l, hl⟩
  simp only [series, passes_append]
  exact ⟨⟨⟨⟨⟨⟨passes_references hrefs, hlabels⟩, passes_data v⟩, passes_samples _⟩,
    passes_histograms _⟩, passes_exemplars h.exemplars⟩, passes_metadata h.metadata⟩

end

end Rules

/-! ### Messages -/

namespace Message

variable {specs : List SeriesSpec} {m : Message}

theorem forall₂_keeps_ofSpecs (h : ofSpecs .indexed specs = .ok m) :
    List.Forall₂ SeriesView.Keeps m.series specs := by
  rcases ofSpecs_eq_ok h with ⟨_, hversion, -⟩ | ⟨x, -, rfl, hbuilds⟩
  · cases hversion
  · rw [series, List.forall₂_map_left_iff]
    exact hbuilds.flip.imp fun _ _ hb => hb.keeps

/-- What is built keeps every series as it was described, in their order, and no check of whether
the message hangs together fails. -/
theorem keeps_ofSpecs (h : ofSpecs .indexed specs = .ok m) (place : Location) :
    List.Forall₂ SeriesView.Keeps m.series specs ∧
      Rules.Passes Rules.coherence (Rules.message m place) := by
  have hkeeps := forall₂_keeps_ofSpecs h
  refine ⟨hkeeps, ?_⟩
  rw [Rules.message, Rules.passes_append, Rules.passes_append]
  refine ⟨⟨Rules.passes_table (symbolsConform_ofSpecs h), Rules.passes_flatMap ?_⟩,
    Rules.passes_families m⟩
  rintro ⟨v, i⟩ hvi
  have hv : v ∈ m.series := List.mem_of_getElem? (List.mem_zipIdx_iff_getElem?.mp hvi)
  obtain ⟨s, -, hs⟩ := exists_of_forall₂_of_mem hkeeps hv
  exact Rules.passes_series hs

theorem keeps_ofSpecs_sharing : ∃ m, ofSpecs .indexed sharing = .ok m ∧
    List.Forall₂ SeriesView.Keeps m.series sharing ∧
      Rules.Passes Rules.coherence (Rules.message m .whole) := by
  obtain ⟨m, hm⟩ : ∃ m, ofSpecs .indexed sharing = .ok m := ⟨_, by cbv⟩
  exact ⟨m, hm, keeps_ofSpecs hm .whole⟩

end Message

end RemoteWrite
