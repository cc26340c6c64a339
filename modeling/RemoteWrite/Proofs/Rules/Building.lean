import RemoteWrite.Proofs.Rules.Conformance
import RemoteWrite.Proofs.Series.Agreement
import RemoteWrite.Proofs.Series.Labels

/-!
# Messages conform as they are built

A description that keeps the rules in itself gives a message that conforms, whichever version it has
(`Message.conforms_ofSpecs`): sorting the labels and interning the texts add what the rules ask of a
message. It conforms as well after it was written and read (`Message.Conforms.plusZeros`).
-/

namespace RemoteWrite

/-- What the rules ask of a description. -/
structure SeriesSpec.Conforms (s : SeriesSpec) : Prop where
  distinct : (s.labels.map (·.1)).Nodup
  named : ∃ name, (Labels.metricLabel, name) ∈ s.labels ∧ name ≠ ""
  exclusive : s.samples = [] ↔ s.histograms ≠ []
  sampleTicks : Ticks (s.samples.map (·.timestamp))
  histogramTicks : Ticks (s.histograms.map (·.timestamp))
  histograms : ∀ h ∈ s.histograms, h.Conforms
  exemplars : ∀ e ∈ s.exemplars, e.view.Conforms

/-! ### Labels -/

theorem Labels.get?_eq_some {l : Labels} (hnodup : l.names.Nodup) {name value : String}
    (h : (name, value) ∈ l.pairs) : l.get? name = some value := by
  have hfound : (l.pairs.find? (·.1 = name)).isSome = true :=
    List.find?_isSome.mpr ⟨_, h, decide_eq_true rfl⟩
  obtain ⟨p, hp⟩ := Option.isSome_iff_exists.mp hfound
  have hname : p.1 = name := by simpa using List.find?_some hp
  have heq : p = (name, value) :=
    List.inj_on_of_nodup_map hnodup (List.mem_of_find?_eq_some hp) h hname
  rw [Labels.get?, hp, heq]
  rfl

theorem SeriesSpec.perm_labelsByName (s : SeriesSpec) : s.labelsByName.Perm s.labels :=
  List.mergeSort_perm _ _

theorem SeriesSpec.pairwise_labelsByName (s : SeriesSpec) :
    s.labelsByName.Pairwise fun a b => Text.le a.1 b.1 = true :=
  List.pairwise_mergeSort (fun a b c => Text.le_trans a.1 b.1 c.1)
    (fun a b => Text.le_total a.1 b.1) _

namespace SeriesSpec.Conforms
variable {s : SeriesSpec}

theorem nodup_names (h : s.Conforms) : (Labels.mk s.labelsByName).names.Nodup :=
  (s.perm_labelsByName.map _).nodup_iff.mpr h.distinct

theorem labels (h : s.Conforms) : (Labels.mk s.labelsByName).Conform where
  ascending := Text.pairwise_lt (List.pairwise_map.mpr s.pairwise_labelsByName) h.nodup_names
  named := by
    obtain ⟨name, hmem, hname⟩ := h.named
    exact ⟨name, Labels.get?_eq_some h.nodup_names (s.perm_labelsByName.mem_iff.mpr hmem), hname⟩

end SeriesSpec.Conforms

/-! ### Series and messages -/

theorem SeriesView.Shows.conforms {v : SeriesView} {s : SeriesSpec} (hv : v.Shows s)
    (hs : s.Conforms) (hmetadata : v.MetadataHolds) : v.Conforms where
  labelsHold := exists_labels_iff.mp ⟨_, hv.labels⟩
  labels := ⟨_, hv.labels, hs.labels⟩
  exclusive := by
    have hnil : v.samples = [] ↔ s.samples = [] := by
      have hlength := congrArg List.length hv.points
      rw [SeriesView.points, List.length_map, List.length_map] at hlength
      rw [← List.length_eq_zero_iff, hlength, List.length_eq_zero_iff]
    rw [hnil, hv.histograms]
    exact hs.exclusive
  sampleTicks := by
    have htimestamps : v.samples.map (·.timestamp) = s.samples.map (·.timestamp) := by
      have hpoints := congrArg (List.map (·.2)) hv.points
      simpa [SeriesView.points, Function.comp_def] using hpoints
    rw [htimestamps]
    exact hs.sampleTicks
  histogramTicks := hv.histograms ▸ hs.histogramTicks
  histograms := hv.histograms ▸ hs.histograms
  exemplarsHold := exists_exemplars_iff.mp ⟨_, hv.exemplars⟩
  exemplars := ⟨_, hv.exemplars, List.forall_mem_map.mpr hs.exemplars⟩
  metadataHolds := hmetadata

namespace Message

variable {version : Version} {specs : List SeriesSpec} {m : Message}

theorem symbolsConform_ofSpecs (h : ofSpecs version specs = .ok m) (x : Indexed.Message)
    (hx : m = .indexed x) : x.SymbolsConform := by
  subst hx
  cases version with
  | legacy =>
    rcases ofSpecs_eq_ok h with ⟨_, -, hx, -⟩ | ⟨_, hversion, -⟩
    · cases hx
    · cases hversion
  | indexed =>
    unfold ofSpecs at h
    cases hb : Indexed.Message.ofSpecs specs with
    | error e => rw [hb] at h; cases h
    | ok y =>
      rw [hb] at h
      cases h
      obtain ⟨⟨b, hvalid, htable⟩, -⟩ := Indexed.Message.valid_ofSpecs hb
      refine ⟨.inl ?_, fun i j t hi hj _ => ?_⟩
      · rw [List.head?_eq_getElem?, ← htable]
        exact hvalid.first
      · rw [← htable] at hi hj
        have hlt : i < b.table.length := (List.getElem?_eq_some_iff.mp hi).1
        exact (List.getElem?_inj hlt hvalid.distinct).mp (hi.trans hj.symm)

theorem metadataHolds_ofSpecs (h : ofSpecs version specs = .ok m) :
    ∀ v ∈ m.series, v.MetadataHolds := by
  rcases ofSpecs_eq_ok h with ⟨x, rfl, rfl, -⟩ | ⟨x, rfl, rfl, hbuilds⟩
  · exact List.forall_mem_map.mpr fun _ _ => trivial
  · refine List.forall_mem_map.mpr fun built hbuilt => ?_
    obtain ⟨s, -, hb⟩ := exists_of_forall₂_of_mem hbuilds.flip hbuilt
    exact SeriesView.exists_metadata_iff.mp ⟨_, Indexed.metadata_of_builds hb⟩

theorem conforms_ofSpecs (h : ofSpecs version specs = .ok m) (hspecs : ∀ s ∈ specs, s.Conforms) :
    m.Conforms where
  symbols := symbolsConform_ofSpecs h
  series := by
    intro v hv
    obtain ⟨s, hs, hshows⟩ := exists_of_forall₂_of_mem (shows_ofSpecs h) hv
    exact hshows.conforms (hspecs s hs) (metadataHolds_ofSpecs h v hv)

end Message

/-! ### Written and read -/

def Exemplar.plusZeros (e : Exemplar) : Exemplar := { e with value := e.value.plusZero }

def SeriesView.plusZeros : SeriesView → SeriesView
  | legacy m s => legacy m.plusZeros s.plusZeros
  | indexed m s => indexed m.plusZeros s.plusZeros

theorem Message.series_plusZeros (m : Message) :
    m.plusZeros.series = m.series.map SeriesView.plusZeros := by
  cases m with
  | legacy m =>
    show (m.series.map Legacy.Series.plusZeros).map (SeriesView.legacy m.plusZeros) = _
    rw [series, List.map_map, List.map_map]
    rfl
  | indexed m =>
    show (m.series.map Indexed.Series.plusZeros).map (SeriesView.indexed m.plusZeros) = _
    rw [series, List.map_map, List.map_map]
    rfl

namespace SeriesView

variable {v : SeriesView}

theorem timestamps_plusZeros (v : SeriesView) :
    v.plusZeros.samples.map (·.timestamp) = v.samples.map (·.timestamp) := by
  cases v with
  | legacy m s =>
    simp [plusZeros, samples, Legacy.Series.plusZeros, Legacy.Sample.plusZeros, Function.comp_def]
  | indexed m s =>
    simp [plusZeros, samples, Indexed.Series.plusZeros, Indexed.Sample.plusZeros,
      Function.comp_def]

theorem histograms_plusZeros (v : SeriesView) :
    v.plusZeros.histograms = v.histograms.map (·.plusZeros) := by
  cases v <;> rfl

theorem firstTimeOf?_plusZeros (v : SeriesView) :
    Captured.firstTimeOf? v.plusZeros = Captured.firstTimeOf? v := by
  have hsamples : v.plusZeros.samples.head?.map (·.timestamp)
      = v.samples.head?.map (·.timestamp) := by
    rw [← List.head?_map, timestamps_plusZeros, List.head?_map]
  have hhistograms : v.plusZeros.histograms.head?.map (·.timestamp)
      = v.histograms.head?.map (·.timestamp) := by
    rw [histograms_plusZeros, List.head?_map, Option.map_map]
    rfl
  rw [firstTimeOf?_eq_or, firstTimeOf?_eq_or, hsamples, hhistograms]

theorem exemplars_plusZeros {es : List Exemplar} (h : v.exemplars = .ok es) :
    v.plusZeros.exemplars = .ok (es.map Exemplar.plusZeros) := by
  cases v with
  | legacy m s =>
    cases h
    simp [plusZeros, exemplars, Legacy.Series.plusZeros, Legacy.Exemplar.plusZeros,
      Exemplar.plusZeros, Function.comp_def]
  | indexed m s =>
    show (SeriesView.indexed m.plusZeros s.plusZeros).exemplars = _
    rw [exemplars, mapM_eq_ok_iff] at h ⊢
    show List.Forall₂ _ (s.exemplars.map Indexed.Exemplar.plusZeros) _
    rw [List.forall₂_map_left_iff, List.forall₂_map_right_iff]
    refine h.imp fun e e' he => ?_
    show (SymbolTable.resolve m.symbols e.labelRefs >>= _) = _
    cases hrefs : SymbolTable.resolve m.symbols e.labelRefs with
    | error fault => rw [hrefs] at he; cases he
    | ok pairs =>
      rw [hrefs] at he
      cases he
      rfl

theorem Conforms.plusZeros (h : v.Conforms) : v.plusZeros.Conforms where
  labelsHold := by
    have := h.labelsHold
    cases v <;> exact this
  labels := by
    have := h.labels
    cases v <;> exact this
  exclusive := by
    have hsamples : v.plusZeros.samples = [] ↔ v.samples = [] := by
      rw [← List.map_eq_nil_iff, timestamps_plusZeros, List.map_eq_nil_iff]
    rw [hsamples, h.exclusive, histograms_plusZeros, ne_eq, ne_eq, List.map_eq_nil_iff]
  sampleTicks := by
    rw [timestamps_plusZeros]
    exact h.sampleTicks
  histogramTicks := by
    rw [histograms_plusZeros, List.map_map]
    exact h.histogramTicks
  histograms := by
    rw [histograms_plusZeros]
    refine List.forall_mem_map.mpr fun x hx => ?_
    have := h.histograms x hx
    exact ⟨this.double, this.whole, this.counts, this.deltas⟩
  exemplarsHold := by
    obtain ⟨es, hes, -⟩ := h.exemplars
    exact exists_exemplars_iff.mp ⟨_, exemplars_plusZeros hes⟩
  exemplars := by
    obtain ⟨es, hes, hconform⟩ := h.exemplars
    refine ⟨_, exemplars_plusZeros hes, List.forall_mem_map.mpr fun e he => ?_⟩
    exact ⟨(hconform e he).runes, (hconform e he).millis⟩
  metadataHolds := by
    have := h.metadataHolds
    cases v <;> exact this

end SeriesView

theorem Message.Conforms.plusZeros {m : Message} (h : m.Conforms) : m.plusZeros.Conforms where
  symbols x hx := by
    cases m with
    | legacy m => cases hx
    | indexed m =>
      cases hx
      have := h.symbols m rfl
      refine ⟨this.first.imp_right fun ⟨hsymbols, hseries⟩ => ⟨hsymbols, ?_⟩, this.distinct⟩
      show m.series.map _ = []
      rw [hseries, List.map_nil]
  series := by
    rw [series_plusZeros]
    exact List.forall_mem_map.mpr fun v hv => (h.series v hv).plusZeros

end RemoteWrite
