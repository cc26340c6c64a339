import RemoteWrite.Proofs.Rules.Described

/-!
# Building a message again

A series of a built message shows its description with the labels in their order and without empty
texts in the metadata. Building does the same with what is shown as with what was described: from
any table it hands out the same references and adds the same texts. So a message that is described
again, series by series as it shows them, is built again as it was (`Message.rebuilt_ofSpecs`).
-/

namespace RemoteWrite

/-! ### Describing what a view shows -/

namespace SeriesView

/-- The created timestamp of the series, 0 where it is not known; the legacy version has none. -/
def created : SeriesView → Int64
  | legacy .. => 0
  | indexed _ s => s.createdTimestamp

/-- The samples tell it too, if there are any. -/
theorem getD_created_of_mem {v : SeriesView} {x : Sample} (h : x ∈ v.samples) :
    x.created.getD 0 = v.created := by
  cases v with
  | legacy m s =>
    obtain ⟨x, -, rfl⟩ := List.mem_map.mp h
    rfl
  | indexed m s =>
    obtain ⟨x, -, rfl⟩ := List.mem_map.mp h
    show (if s.createdTimestamp = 0 then none else some s.createdTimestamp).getD 0
      = s.createdTimestamp
    split
    · next hzero => exact hzero.symm
    · rfl

end SeriesView

namespace SeriesSpec

/-- The description of a series as its view shows it, if the view resolves. -/
def ofView (v : SeriesView) : Except Error SeriesSpec := do
  let labels ← v.labels
  let exemplars ← v.exemplars
  let metadata ← v.metadata
  return {
    labels := labels.pairs
    samples := v.samples.map fun x => ⟨x.value, x.timestamp⟩
    histograms := v.histograms
    exemplars := exemplars.map fun e => ⟨e.labels.pairs, e.value, e.timestamp⟩
    metadata
    createdTimestamp := v.created }

/-- What a series shows that is built of the description. -/
def shown (s : SeriesSpec) : SeriesSpec :=
  { s with labels := s.labelsByName, metadata := s.metadata.map Metadata.withoutEmpty }

/-- Labels that are in their order stay there, also those of one name. -/
theorem labelsByName_shown (s : SeriesSpec) : s.shown.labelsByName = s.labelsByName :=
  List.mergeSort_of_pairwise s.pairwise_labelsByName

end SeriesSpec

/-- The message of the same version that is built of what the series show. -/
def Message.rebuilt (m : Message) : Except Error Message := do
  let specs ← m.series.mapM SeriesSpec.ofView
  ofSpecs m.version specs

theorem Indexed.Builds.ofView {m : Message} {s : SeriesSpec} {built : Series}
    (h : Builds m.symbols s built) : SeriesSpec.ofView (.indexed m built) = .ok s.shown := by
  have hsamples : (SeriesView.indexed m built).samples.map
      (fun x => SampleSpec.mk x.value x.timestamp) = s.samples := by
    rw [h.keeps.samples, List.map_map]
    exact List.map_id _
  have hexemplars : (s.exemplars.map ExemplarSpec.view).map
      (fun e => ExemplarSpec.mk e.labels.pairs e.value e.timestamp) = s.exemplars := by
    rw [List.map_map]
    exact List.map_id _
  rw [SeriesSpec.ofView, h.shows.labels, h.shows.exemplars, metadata_of_builds h, hsamples,
    h.shows.histograms]
  show Except.ok _ = _
  rw [hexemplars]
  simp [SeriesSpec.shown, SeriesView.created, h.created]

/-! ### Steps that do the same -/

namespace Interning

variable {α β : Type}

/-- From any valid builder the steps hand out the same and end at the same builder. -/
def Same (m m' : Interning α) : Prop := ∀ b, b.Valid → m.run.run b = m'.run.run b

namespace Same

variable {m m' : Interning α} {P : SymbolTable → α → Prop}

theorem refl (m : Interning α) : Same m m := fun _ _ => rfl

/-- The second steps start from what the first one leaves, which is valid by its spec. -/
theorem bind {f f' : α → Interning β} (hm : Same m m') (hspec : Spec m P)
    (hf : ∀ a, Same (f a) (f' a)) : Same (m >>= f) (m' >>= f') := by
  intro b hb
  rw [run_bind, run_bind, ← hm b hb]
  rcases hrun : m.run.run b with ⟨e | a, b'⟩
  · rfl
  · exact hf a b' (hspec b hb _ b' hrun).1

theorem mapM {f f' : β → Interning α} {R : SymbolTable → β → α → Prop}
    (hf : ∀ x, Same (f x) (f' x)) (hspec : ∀ x, Spec (f x) fun table => R table x) (xs : List β) :
    Same (xs.mapM f) (xs.mapM f') := by
  induction xs with
  | nil => exact refl _
  | cons x xs ih =>
    rw [List.mapM_cons, List.mapM_cons]
    exact (hf x).bind (hspec x) fun a => ih.bind (Spec.mapM hspec xs) fun as => refl _

end Same

/-- Reference 0 is that of the empty text, as it is of no text. -/
theorem same_internOption (s : Option String) :
    Same (internOption (s.filter (· ≠ ""))) (internOption s) := by
  cases s with
  | none => exact .refl _
  | some s =>
    by_cases hs : s = ""
    · subst hs
      intro b hb
      have hzero : b.index[""]? = some 0 := (hb.index "" 0).mpr hb.first
      show _ = (intern "").run.run b
      rw [run_intern, hzero]
      rfl
    · have hkept : (some s).filter (· ≠ "") = some s := by simp [hs]
      rw [hkept]
      exact .refl _

end Interning

namespace Indexed

open Interning

theorem same_metadataOf (d : RemoteWrite.Metadata) :
    Same (metadataOf d.withoutEmpty) (metadataOf d) :=
  (same_internOption d.help).bind (spec_internOption _) fun _ =>
    (same_internOption d.unit).bind (spec_internOption _) fun _ => .refl _

theorem same_seriesOf (s : SeriesSpec) : Same (seriesOf s.shown) (seriesOf s) := by
  have hmetadata : Same (s.shown.metadata.mapM metadataOf) (s.metadata.mapM metadataOf) := by
    show Same ((s.metadata.map RemoteWrite.Metadata.withoutEmpty).mapM metadataOf) _
    cases s.metadata with
    | none => exact .refl _
    | some d => exact (same_metadataOf d).bind (spec_metadataOf _) fun _ => .refl _
  have hlabels : Same (internLabels s.shown.labelsByName) (internLabels s.labelsByName) := by
    rw [s.labelsByName_shown]
    exact .refl _
  exact hlabels.bind (spec_internLabels _) fun _ =>
    (Same.refl _).bind (Spec.mapM spec_exemplarOf _) fun _ =>
      hmetadata.bind (Spec.optionMapM spec_metadataOf _) fun _ => .refl _

/-- What is shown is built as what was described is. -/
theorem Message.ofSpecs_shown (specs : List SeriesSpec) :
    ofSpecs (specs.map SeriesSpec.shown) = ofSpecs specs := by
  have hsame := Same.mapM same_seriesOf (fun s => spec_seriesOf s.shown) specs
  have hmap : (specs.map SeriesSpec.shown).mapM seriesOf
      = specs.mapM fun s => seriesOf s.shown := List.mapM_map
  rw [ofSpecs, ofSpecs, hmap, hsame .empty SymbolBuilder.valid_empty]

end Indexed

/-! ### Messages -/

namespace Message

variable {specs : List SeriesSpec} {m : Message}

/-- The series of a message of the indexed version that is built show their descriptions, and
building the message again of what they show gives the same table and the same references. The
created timestamp that is shown is the one that the samples tell. -/
theorem rebuilt_ofSpecs (h : ofSpecs .indexed specs = .ok m) :
    m.series.mapM SeriesSpec.ofView = .ok (specs.map SeriesSpec.shown) ∧ m.rebuilt = .ok m ∧
      ∀ v ∈ m.series, ∀ x ∈ v.samples, x.created.getD 0 = v.created := by
  rcases ofSpecs_eq_ok h with ⟨_, hversion, -⟩ | ⟨x, -, rfl, hbuilds⟩
  · cases hversion
  have hviews : (Message.indexed x).series.mapM SeriesSpec.ofView
      = .ok (specs.map SeriesSpec.shown) := by
    rw [mapM_eq_ok_iff, series, List.forall₂_map_left_iff, List.forall₂_map_right_iff]
    exact hbuilds.flip.imp fun _ _ hb => hb.ofView
  have hagain : ofSpecs .indexed (specs.map SeriesSpec.shown) = .ok (Message.indexed x) := by
    rw [← h, ofSpecs, ofSpecs, Indexed.Message.ofSpecs_shown]
  refine ⟨hviews, ?_, fun v _ x hx => SeriesView.getD_created_of_mem hx⟩
  rw [rebuilt, hviews]
  exact hagain

/-- Labels out of order of which two have one name, no sample that would tell the created timestamp,
and metadata with an empty text. -/
def disordered : SeriesSpec :=
  ⟨[("z", "1"), ("__name__", "up"), ("z", "0"), ("", "up")], [], [],
    [⟨[("z", ""), ("a", "1")], .one, 5⟩], some ⟨.counter, some "", some "a"⟩, 7⟩

theorem rebuilt_ofSpecs_disordered : ∃ m, ofSpecs .indexed (disordered :: sharing) = .ok m ∧
    m.rebuilt = .ok m := by
  obtain ⟨m, hm⟩ : ∃ m, ofSpecs .indexed (disordered :: sharing) = .ok m := ⟨_, by cbv⟩
  exact ⟨m, hm, (rebuilt_ofSpecs hm).2.1⟩

end Message

end RemoteWrite
