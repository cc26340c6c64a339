import RemoteWrite.Proofs.Series.Spec
import RemoteWrite.Receiver.Captured
import RemoteWrite.Rules.Series

/-!
# Agreement of the two versions

Of one description both versions build a series that shows it (`SeriesView.Shows`), the one inline
and the other through its table of symbols. So the two messages agree in all that a view tells of
either, and the rules for labels, samples and exemplars find the same in both
(`Message.agrees_ofSpecs`).
-/

namespace RemoteWrite

/-- An exemplar as it is described. -/
def ExemplarSpec.view (e : ExemplarSpec) : Exemplar := ⟨⟨e.labels⟩, e.value, e.timestamp⟩

namespace SeriesView

/-- What the samples of either version tell. -/
def points (samples : List Sample) : List (Binary64 × Int64) :=
  samples.map fun s => (s.value, s.timestamp)

/-- The view gives what the description says. -/
structure Shows (v : SeriesView) (s : SeriesSpec) : Prop where
  labels : v.labels = .ok ⟨s.labelsByName⟩
  points : points v.samples = s.samples.map fun x => (x.value, x.timestamp)
  histograms : v.histograms = s.histograms
  exemplars : v.exemplars = .ok (s.exemplars.map ExemplarSpec.view)

/-- Two views that give the same, but for the created timestamp. -/
structure Agrees (v w : SeriesView) : Prop where
  labels : ∃ l, v.labels = .ok l ∧ w.labels = .ok l
  metric? : v.metric? = w.metric?
  points : SeriesView.points v.samples = SeriesView.points w.samples
  histograms : v.histograms = w.histograms
  exemplars : ∃ es, v.exemplars = .ok es ∧ w.exemplars = .ok es
  counts : v.counts = w.counts

end SeriesView

/-! ### Series of a description -/

theorem Legacy.shows_ofSpec (m : Message) {s : SeriesSpec} (h : s.histograms = []) :
    (SeriesView.legacy m (Series.ofSpec s)).Shows s where
  labels := labels_ofSpec m s
  points := by simp [SeriesView.points, SeriesView.samples, Series.ofSpec]
  histograms := h.symm
  exemplars := by
    simp only [SeriesView.exemplars, Series.ofSpec, List.map_map]
    refine congrArg Except.ok (List.map_congr_left fun e _ => ?_)
    simp [SeriesView.ofLegacyLabels, labelsOf, ExemplarSpec.view, Function.comp_def]

theorem Indexed.Builds.shows {m : Message} {s : SeriesSpec} {built : Series}
    (h : Builds m.symbols s built) : (SeriesView.indexed m built).Shows s where
  labels := by rw [SeriesView.labels, h.labels]; rfl
  points := by simp [SeriesView.points, SeriesView.samples, h.samples]
  histograms := h.histograms
  exemplars := by
    rw [SeriesView.exemplars, mapM_eq_ok_iff, List.forall₂_map_right_iff]
    refine h.exemplars.flip.imp fun x e he => ?_
    obtain ⟨hlabels, hvalue, htimestamp⟩ := he
    rw [hlabels, hvalue, htimestamp]
    rfl

/-- The legacy version cannot hold native histograms, and nothing else keeps it from being built. -/
theorem Message.exists_legacy_iff {specs : List SeriesSpec} :
    (∃ m, ofSpecs .legacy specs = .ok m) ↔ ∀ s ∈ specs, s.histograms = [] := by
  rw [ofSpecs, exists_map_iff, Legacy.Message.ofSpecs]
  split
  · next h =>
    refine iff_of_true ⟨_, rfl⟩ fun s hs => ?_
    exact List.isEmpty_iff.mp (List.all_eq_true.mp h s hs)
  · next h =>
    refine iff_of_false (fun ⟨_, h'⟩ => nomatch h') fun hnone => h ?_
    exact List.all_eq_true.mpr fun s hs => List.isEmpty_iff.mpr (hnone s hs)

theorem Message.shows_ofSpecs {version : Version} {specs : List SeriesSpec} {m : Message}
    (h : ofSpecs version specs = .ok m) : List.Forall₂ SeriesView.Shows m.series specs := by
  rcases ofSpecs_eq_ok h with ⟨x, rfl, rfl, hseries⟩ | ⟨x, rfl, rfl, hbuilds⟩
  · have hnone := exists_legacy_iff.mp ⟨_, h⟩
    rw [series, hseries, List.map_map, List.forall₂_map_left_iff, List.forall₂_same]
    exact fun s hs => Legacy.shows_ofSpec x (hnone s hs)
  · rw [series, List.forall₂_map_left_iff]
    exact hbuilds.flip.imp fun _ _ hb => hb.shows

namespace SeriesView

variable {v w : SeriesView} {s : SeriesSpec}

theorem length_exemplars {es : List Exemplar} (h : v.exemplars = .ok es) :
    es.length = v.numExemplars := by
  cases v with
  | legacy m x => cases h; exact List.length_map ..
  | indexed m x => exact (mapM_eq_ok_iff.mp h).length_eq.symm

theorem Shows.agrees (hv : v.Shows s) (hw : w.Shows s) : v.Agrees w where
  labels := ⟨_, hv.labels, hw.labels⟩
  metric? := by rw [SeriesView.metric?, hv.labels, SeriesView.metric?, hw.labels]
  points := hv.points.trans hw.points.symm
  histograms := hv.histograms.trans hw.histograms.symm
  exemplars := ⟨_, hv.exemplars, hw.exemplars⟩
  counts := by
    have hlength : ∀ {u : SeriesView}, u.Shows s → u.counts
        = ⟨.ofNat s.samples.length, .ofNat s.histograms.length, .ofNat s.exemplars.length⟩ := by
      intro u hu
      have hsamples := congrArg List.length hu.points
      rw [SeriesView.points, List.length_map, length_samples, List.length_map] at hsamples
      have hexemplars := length_exemplars hu.exemplars
      rw [List.length_map] at hexemplars
      rw [SeriesView.counts, hsamples, hu.histograms, ← hexemplars]
    rw [hlength hv, hlength hw]

theorem firstTimeOf?_eq_or (v : SeriesView) : Captured.firstTimeOf? v
    = (v.samples.head?.map (·.timestamp)).or (v.histograms.head?.map (·.timestamp)) := by
  unfold Captured.firstTimeOf?
  cases v.samples.head? <;> rfl

theorem Agrees.firstTimeOf? (h : v.Agrees w) :
    Captured.firstTimeOf? v = Captured.firstTimeOf? w := by
  have hhead : v.samples.head?.map (·.timestamp) = w.samples.head?.map (·.timestamp) := by
    have hpoints := congrArg (fun l => l.head?.map (·.2)) h.points
    simpa [SeriesView.points, List.head?_map, Function.comp_def] using hpoints
  rw [firstTimeOf?_eq_or, firstTimeOf?_eq_or, hhead, h.histograms]

end SeriesView

/-! ### Findings in series that agree -/

namespace Rules

/-- Findings but for those on the created timestamp, which the legacy version lacks. -/
def butCreated (findings : List Finding) : List Finding :=
  findings.filter (·.check ≠ "created-timestamp")

theorem staleClash?_timestamp (samples : List Sample) :
    (staleClash? samples).map (·.timestamp)
      = (((SeriesView.points samples).filter (·.1.isNaN)).find? fun m =>
          (SeriesView.points samples).any fun s => !s.1.isNaN && s.2 == m.2).map (·.2) := by
  simp only [staleClash?, SeriesView.points, List.filter_map, List.find?_map, List.any_map,
    Option.map_map, Function.comp_def]

theorem butCreated_samples_congr {l l' : List Sample}
    (h : SeriesView.points l = SeriesView.points l') (place : Location) :
    butCreated (samples l place) = butCreated (samples l' place) := by
  have htimestamps : l.map (·.timestamp) = l'.map (·.timestamp) := by
    have hpoints := congrArg (List.map (·.2)) h
    simpa [SeriesView.points, Function.comp_def] using hpoints
  have hnans : l.any (·.value.isNaN) = l'.any (·.value.isNaN) := by
    have hpoints := congrArg (List.any · (·.1.isNaN)) h
    simpa [SeriesView.points, List.any_map, Function.comp_def] using hpoints
  have hclash : (staleClash? l).map (·.timestamp) = (staleClash? l').map (·.timestamp) := by
    rw [staleClash?_timestamp, staleClash?_timestamp, h]
  simp only [samples, butCreated, List.filter_append, htimestamps, hnans, hclash]
  -- What is left is the finding on the created timestamp, which is dropped on both sides.
  congr 1
  split <;> split <;> simp [Finding.of]

/-- The same findings on labels, samples and exemplars. -/
structure Agree (v w : SeriesView) (place : Location) : Prop where
  labels : resolvedLabels v place = resolvedLabels w place
  samples : butCreated (Rules.samples v.samples place) = butCreated (Rules.samples w.samples place)
  exemplars : Rules.exemplars v place = Rules.exemplars w place

end Rules

theorem SeriesView.Agrees.rules {v w : SeriesView} (h : v.Agrees w) (place : Location) :
    Rules.Agree v w place where
  labels := by
    obtain ⟨l, hv, hw⟩ := h.labels
    rw [Rules.resolvedLabels, hv, Rules.resolvedLabels, hw]
  samples := Rules.butCreated_samples_congr h.points place
  exemplars := by
    obtain ⟨es, hv, hw⟩ := h.exemplars
    rw [Rules.exemplars, hv, Rules.exemplars, hw]

/-! ### Messages of a description -/

namespace Message

/-- The position at which a series is found by its metric name. -/
def position? (m : Message) (name : String) : Option Nat :=
  m.series.findIdx? (·.metric? = some name)

theorem series?_eq_bind (m : Message) (name : String) :
    m.series? name = (m.position? name).bind (m.series[·]?) :=
  List.find?_eq_bind_findIdx?_getElem?

/-- Two messages that give the same series at each position, and what follows for them. -/
structure Agrees (a b : Message) : Prop where
  series : List.Forall₂ SeriesView.Agrees a.series b.series
  counts : a.counts = b.counts
  position? : ∀ name, a.position? name = b.position? name
  series? : ∀ name, Option.Rel SeriesView.Agrees (a.series? name) (b.series? name)
  firstTime? : ∀ c : Captured,
    { c with decoded := .ok a }.firstTime? = { c with decoded := .ok b }.firstTime?
  rules : List.Forall₂ (fun v w => ∀ place, Rules.Agree v w place) a.series b.series

section
variable {a b : Message} (h : List.Forall₂ SeriesView.Agrees a.series b.series)
include h

theorem position?_congr (name : String) : a.position? name = b.position? name := by
  have hmetrics := congrArg (List.findIdx? (· = some name))
    (map_eq_map_of_forall₂ h fun _ _ hab => hab.metric?)
  rw [List.findIdx?_map, List.findIdx?_map] at hmetrics
  exact hmetrics

theorem rel_series? (name : String) :
    Option.Rel SeriesView.Agrees (a.series? name) (b.series? name) := by
  rw [series?_eq_bind, series?_eq_bind, position?_congr h name]
  cases b.position? name with
  | none => exact .none
  | some i => exact rel_getElem?_of_forall₂ h i

theorem Agrees.of_series : a.Agrees b where
  series := h
  counts := by
    rw [Message.counts, map_eq_map_of_forall₂ h fun _ _ hab => hab.counts, ← Message.counts]
  position? := position?_congr h
  series? := rel_series? h
  firstTime? c := by
    have htimes := congrArg (List.findSome? id)
      (map_eq_map_of_forall₂ h fun _ _ hab => hab.firstTimeOf?)
    rw [List.findSome?_map, List.findSome?_map] at htimes
    exact htimes
  rules := h.imp fun _ _ hab => hab.rules

end

/-- Both versions present the same series of a description, and the legacy one fails to be built
exactly of native histograms. -/
theorem agrees_ofSpecs (specs : List SeriesSpec) :
    (∀ a b, ofSpecs .legacy specs = .ok a → ofSpecs .indexed specs = .ok b → a.Agrees b) ∧
      ((∃ e, ofSpecs .legacy specs = .error e) ↔ ∃ s ∈ specs, s.histograms ≠ []) := by
  constructor
  · intro a b ha hb
    refine .of_series ?_
    exact forall₂_of_forall₂ (shows_ofSpecs ha) (shows_ofSpecs hb) fun _ _ _ hv hw => hv.agrees hw
  · rw [← not_iff_not]
    push Not
    rw [← exists_legacy_iff]
    cases ofSpecs .legacy specs with
    | error e => simp
    | ok m => simp

/-- Series that share texts: as names and values, twice in a label list, empty, in an exemplar. -/
def sharing : List SeriesSpec :=
  [⟨[("b", ""), ("a", "up"), ("__name__", "up"), ("a", "b")], [⟨.one, 1⟩, ⟨.nan, 1⟩], [],
      [⟨[("up", "a"), ("", "")], .zero, 3⟩], some ⟨.gauge, some "up", none⟩, 2⟩,
    ⟨[], [⟨.negZero, 4⟩], [], [], none, 0⟩,
    ⟨[("", "a"), ("__name__", "b")], [], [], [], none, 0⟩]

theorem agrees_ofSpecs_sharing : ∃ a b, ofSpecs .legacy sharing = .ok a ∧
    ofSpecs .indexed sharing = .ok b ∧ a.Agrees b ∧ a.position? "b" = some 2 ∧
    ¬ ∃ e, ofSpecs .legacy sharing = .error e := by
  obtain ⟨hagrees, hfails⟩ := agrees_ofSpecs sharing
  obtain ⟨b, hb⟩ : ∃ b, ofSpecs .indexed sharing = .ok b := ⟨_, by cbv⟩
  refine ⟨_, b, rfl, hb, hagrees _ b rfl hb, by cbv, ?_⟩
  rw [hfails]
  decide

end Message

end RemoteWrite
