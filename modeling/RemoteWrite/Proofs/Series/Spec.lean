import RemoteWrite.Proofs.Series.Interning
import RemoteWrite.Proofs.Series.Samples
import RemoteWrite.Series.Spec

/-!
# Messages built from series

A message that is built holds the series that were described, in their order, whichever version it
has: each resolves to the labels of its description by name and lists the samples of it
(`Message.labelledSamples_ofSpecs`).
-/

namespace RemoteWrite

/-- What a description says of samples. -/
def SeriesSpec.labelledSamples (s : SeriesSpec) :
    List (Except Error Labels × Binary64 × Int64) :=
  s.samples.map fun x => (.ok ⟨s.labelsByName⟩, x.value, x.timestamp)

/-- Metadata as a series of the indexed version gives them: an empty text counts as none. -/
def Metadata.withoutEmpty (d : Metadata) : Metadata :=
  ⟨d.type, d.help.filter (· ≠ ""), d.unit.filter (· ≠ "")⟩

theorem MetricType.ofNumber_number (type : MetricType) : ofNumber type.number = type := by
  cases type <;> rfl

/-! ### The legacy version -/

namespace Legacy

theorem labels_ofSpec (m : Message) (s : SeriesSpec) :
    (SeriesView.legacy m (Series.ofSpec s)).labels = .ok ⟨s.labelsByName⟩ := by
  show Except.ok (SeriesView.ofLegacyLabels (labelsOf s.labelsByName)) = _
  rw [SeriesView.ofLegacyLabels, labelsOf, List.map_map]
  exact congrArg (fun pairs => Except.ok (Labels.mk pairs)) (List.map_id _)

theorem labelledSamples_ofSpec (m : Message) (s : SeriesSpec) :
    (SeriesView.legacy m (Series.ofSpec s)).labelledSamples = s.labelledSamples := by
  rw [SeriesView.labelledSamples, labels_ofSpec]
  simp [SeriesView.samples, Series.ofSpec, SeriesSpec.labelledSamples]

theorem Message.ofSpecs_eq_ok {specs : List SeriesSpec} {m : Message}
    (h : ofSpecs specs = .ok m) : m.series = specs.map Series.ofSpec := by
  unfold ofSpecs at h
  split at h
  · cases h; rfl
  · cases h

end Legacy

/-! ### The indexed version -/

namespace Indexed

open Interning

/-- Metadata as they are built of a description, in a table that holds their texts. -/
structure Describes (table : SymbolTable) (d : RemoteWrite.Metadata) (built : Metadata) : Prop where
  type : built.type = d.type.number
  help : table.lookupOption built.helpRef = .ok (d.help.filter (· ≠ ""))
  unit : table.lookupOption built.unitRef = .ok (d.unit.filter (· ≠ ""))

/-- A series as it is built of a description, in a table that holds its texts. -/
structure Builds (table : SymbolTable) (s : SeriesSpec) (built : Series) : Prop where
  labels : table.resolve built.labelRefs = .ok s.labelsByName
  samples : built.samples = s.samples.map fun x => ⟨x.value, x.timestamp⟩
  histograms : built.histograms = s.histograms
  exemplars : List.Forall₂ (fun (e : ExemplarSpec) x =>
    table.resolve x.labelRefs = .ok e.labels ∧ x.value = e.value ∧ x.timestamp = e.timestamp)
    s.exemplars built.exemplars
  metadata : Option.Rel (Describes table) s.metadata built.metadata
  created : built.createdTimestamp = s.createdTimestamp

theorem spec_exemplarOf (e : ExemplarSpec) : Spec (exemplarOf e) fun table x =>
    table.resolve x.labelRefs = .ok e.labels ∧ x.value = e.value ∧ x.timestamp = e.timestamp :=
  (spec_internLabels e.labels).bind fun _ => .of_pure fun _ h => ⟨h, rfl, rfl⟩

theorem spec_metadataOf (d : RemoteWrite.Metadata) :
    Spec (metadataOf d) fun table => Describes table d :=
  (spec_internOption d.help).bind fun _ => (spec_internOption d.unit).bind fun _ =>
    .of_pure fun _ hunit hhelp => ⟨rfl, hhelp, hunit⟩

theorem spec_seriesOf (s : SeriesSpec) : Spec (seriesOf s) fun table => Builds table s :=
  (spec_internLabels s.labelsByName).bind fun _ =>
    (Spec.mapM spec_exemplarOf s.exemplars).bind fun _ =>
      (Spec.optionMapM spec_metadataOf s.metadata).bind fun _ =>
        .of_pure fun _ hmetadata hexemplars hlabels =>
          ⟨hlabels, rfl, rfl, hexemplars, hmetadata, rfl⟩

/-- The table of a message that is built is that of a builder. -/
theorem Message.valid_ofSpecs {specs : List SeriesSpec} {m : Message} (h : ofSpecs specs = .ok m) :
    (∃ b : SymbolBuilder, b.Valid ∧ b.table = m.symbols) ∧
      List.Forall₂ (Builds m.symbols) specs m.series := by
  unfold ofSpecs at h
  rcases hrun : ((specs.mapM seriesOf).run).run .empty with ⟨e | series, b⟩
  · rw [hrun] at h; cases h
  · rw [hrun] at h
    cases h
    obtain ⟨hvalid, -, -, hresult⟩ :=
      Spec.mapM spec_seriesOf specs .empty SymbolBuilder.valid_empty _ b hrun
    exact ⟨⟨b, hvalid, rfl⟩, hresult series rfl _ (List.prefix_refl _)⟩

theorem Message.ofSpecs_eq_ok {specs : List SeriesSpec} {m : Message}
    (h : ofSpecs specs = .ok m) : List.Forall₂ (Builds m.symbols) specs m.series :=
  (valid_ofSpecs h).2

/-- Nothing but a full table keeps the indexed version from being built. -/
theorem Message.eq_tableFull_of_error {specs : List SeriesSpec} {e : Error}
    (h : ofSpecs specs = .error e) : e = tableFull := by
  unfold ofSpecs at h
  rcases hrun : ((specs.mapM seriesOf).run).run .empty with ⟨e' | series, b⟩
  · rw [hrun] at h
    cases h
    obtain ⟨-, -, hfails, -⟩ :=
      Spec.mapM spec_seriesOf specs .empty SymbolBuilder.valid_empty _ b hrun
    exact (hfails e rfl).1
  · rw [hrun] at h; cases h

theorem labelledSamples_of_builds {m : Message} {s : SeriesSpec} {built : Series}
    (h : Builds m.symbols s built) :
    (SeriesView.indexed m built).labelledSamples = s.labelledSamples := by
  have hlabels : (SeriesView.indexed m built).labels = .ok ⟨s.labelsByName⟩ := by
    rw [SeriesView.labels, h.labels]; rfl
  rw [SeriesView.labelledSamples, hlabels]
  simp [SeriesView.samples, h.samples, SeriesSpec.labelledSamples]

theorem metadata_of_builds {m : Message} {s : SeriesSpec} {built : Series}
    (h : Builds m.symbols s built) :
    (SeriesView.indexed m built).metadata = .ok (s.metadata.map RemoteWrite.Metadata.withoutEmpty) := by
  have hmetadata := h.metadata
  rw [SeriesView.metadata]
  generalize s.metadata = given at hmetadata
  generalize built.metadata = kept at hmetadata
  cases hmetadata with
  | none => rfl
  | some hd =>
    simp only [hd.help, hd.unit, hd.type, MetricType.ofNumber_number]
    rfl

theorem flatMap_labelledSamples {m : Message} {specs : List SeriesSpec} {built : List Series}
    (h : List.Forall₂ (Builds m.symbols) specs built) :
    built.flatMap (fun s => (SeriesView.indexed m s).labelledSamples)
      = specs.flatMap (·.labelledSamples) := by
  induction h with
  | nil => rfl
  | cons hs _ ih => rw [List.flatMap_cons, List.flatMap_cons, labelledSamples_of_builds hs, ih]

end Indexed

/-! ### Either version -/

namespace Message
variable {version : Version} {specs : List SeriesSpec} {m : Message}

theorem ofSpecs_eq_ok (h : ofSpecs version specs = .ok m) :
    (∃ x, version = .legacy ∧ m = .legacy x ∧ x.series = specs.map Legacy.Series.ofSpec) ∨
      ∃ x, version = .indexed ∧ m = .indexed x ∧
        List.Forall₂ (Indexed.Builds x.symbols) specs x.series := by
  cases version with
  | legacy =>
    unfold ofSpecs at h
    cases hb : Legacy.Message.ofSpecs specs with
    | error e => rw [hb] at h; cases h
    | ok x =>
      rw [hb] at h
      cases h
      exact .inl ⟨x, rfl, rfl, Legacy.Message.ofSpecs_eq_ok hb⟩
  | indexed =>
    unfold ofSpecs at h
    cases hb : Indexed.Message.ofSpecs specs with
    | error e => rw [hb] at h; cases h
    | ok x =>
      rw [hb] at h
      cases h
      exact .inr ⟨x, rfl, rfl, Indexed.Message.ofSpecs_eq_ok hb⟩

theorem version_ofSpecs (h : ofSpecs version specs = .ok m) : m.version = version := by
  rcases ofSpecs_eq_ok h with ⟨x, rfl, rfl, -⟩ | ⟨x, rfl, rfl, -⟩ <;> rfl

theorem size_ofSpecs (h : ofSpecs version specs = .ok m) : m.size = specs.length := by
  rcases ofSpecs_eq_ok h with ⟨x, rfl, rfl, hseries⟩ | ⟨x, rfl, rfl, hbuilds⟩
  · show x.series.length = _
    rw [hseries, List.length_map]
  · exact hbuilds.length_eq.symm

theorem labelledSamples_ofSpecs (h : ofSpecs version specs = .ok m) :
    m.labelledSamples = specs.flatMap (·.labelledSamples) := by
  rcases ofSpecs_eq_ok h with ⟨x, rfl, rfl, hseries⟩ | ⟨x, rfl, rfl, hbuilds⟩
  · rw [labelledSamples, series, hseries, List.map_map, List.flatMap_map]
    exact List.flatMap_congr fun s _ => Legacy.labelledSamples_ofSpec x s
  · rw [labelledSamples, series, List.flatMap_map]
    exact Indexed.flatMap_labelledSamples hbuilds

end Message

end RemoteWrite
