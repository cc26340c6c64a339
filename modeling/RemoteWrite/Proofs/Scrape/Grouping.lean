import RemoteWrite.Proofs.Rules.Described
import RemoteWrite.Proofs.Runs
import RemoteWrite.Proofs.Scrape.Message
import RemoteWrite.Proofs.Series.Texts

/-!
# Series of a scrape

Each series of a scrape's message holds a maximal run of samples that are written with one name and
one label list (`Scrape.grouped_message`). Labels that are written in another order make another run,
although they are sorted alike; so neighbouring series have different labels exactly if no two
neighbouring samples are of this kind (`Scrape.labels_ne_iff`).
-/

namespace RemoteWrite

/-- Of either version a built series shows its description, and of the indexed one it has the
metadata too. -/
theorem Message.tells_ofSpecs {version : Version} {specs : List SeriesSpec} {m : Message}
    (h : ofSpecs version specs = .ok m) :
    List.Forall₂ (fun v s => v.Shows s ∧
      (version = .indexed → v.metadata = .ok (s.metadata.map Metadata.withoutEmpty)))
      m.series specs := by
  rcases ofSpecs_eq_ok h with ⟨x, rfl, rfl, -⟩ | ⟨x, rfl, rfl, hbuilds⟩
  · exact (shows_ofSpecs h).imp fun _ _ hs => ⟨hs, fun hversion => nomatch hversion⟩
  · rw [series, List.forall₂_map_left_iff]
    exact hbuilds.flip.imp fun _ _ hb => ⟨hb.shows, fun _ => Indexed.metadata_of_builds hb⟩

namespace Scrape

variable {x : Scrape} {now : Int64} {version : Version} {m : Message}

/-- What a message says of a sample; without a timestamp it gets `now`. -/
def Sample.point (now : Int64) (s : Sample) : Binary64 × Int64 := (s.value, s.timestamp.getD now)

/-- The labels of a sample as they are written, its metric name in front. -/
def Sample.written (s : Sample) : LabelList := (Labels.metricLabel, s.name) :: s.labels

/-- The view is that of a series of these samples and of nothing else. -/
structure HoldsRun (x : Scrape) (version : Version) (now : Int64) (v : SeriesView)
    (run : List Sample) : Prop where
  nonempty : v.samples ≠ []
  points : SeriesView.points v.samples = run.map (Sample.point now)
  histograms : v.histograms = []
  exemplars : v.exemplars = .ok []
  labels : ∀ s ∈ run, v.labels = .ok s.labelsByName ∧ s.labelsByName.SortOf s.written
  metadata : version = .indexed → ∀ s ∈ run,
    v.metadata = .ok ((x.describe? s.name).map Metadata.withoutEmpty)

theorem HoldsRun.run_ne_nil {v : SeriesView} {run : List Sample}
    (h : x.HoldsRun version now v run) : run ≠ [] := by
  intro hnil
  have hpoints := h.points
  rw [hnil, SeriesView.points, List.map_nil, List.map_eq_nil_iff] at hpoints
  exact h.nonempty hpoints

/-! ### Runs of samples -/

/-- Samples that are written as one series. -/
def SameSeries (a b : Sample) : Prop := a.name = b.name ∧ a.labels = b.labels

theorem runs_samples (x : Scrape) :
    Runs SameSeries x.samples (x.samples.splitBy Sample.sameSeries) :=
  runs_splitBy (fun _ _ => sameSeries_iff) x.samples

/-- The series of a run is described by the first of its samples, which speaks for all. -/
structure Describes (x : Scrape) (now : Int64) (run : List Sample) (s : SeriesSpec) : Prop where
  spec : ∃ first ∈ run, s = x.specOf now first run
  same : ∀ a ∈ run, ∀ b ∈ run, SameSeries a b

theorem forall₂_describes (x : Scrape) (now : Int64) :
    List.Forall₂ (x.Describes now) (x.samples.splitBy Sample.sameSeries) (x.specs now) := by
  let specOf? (run : List Sample) := run.head?.map fun first => x.specOf now first run
  have hall : ∀ run ∈ x.samples.splitBy Sample.sameSeries,
      ∃ s, specOf? run = some s ∧ x.Describes now run s := by
    intro run hrun
    obtain ⟨first, rest, rfl⟩ := List.exists_cons_of_ne_nil (List.ne_nil_of_mem_splitBy hrun)
    refine ⟨_, rfl, ⟨first, List.mem_cons_self, rfl⟩, fun a ha b hb => ?_⟩
    have hchain := List.isChain_of_mem_splitBy hrun
    obtain ⟨haname, halabels⟩ := sameSeries_head hchain ha
    obtain ⟨hbname, hblabels⟩ := sameSeries_head hchain hb
    exact ⟨haname.trans hbname.symm, halabels.trans hblabels.symm⟩
  rw [specs_eq]
  exact forall₂_filterMap hall

theorem Describes.holdsRun {v : SeriesView} {s : SeriesSpec} {run : List Sample}
    (h : x.Describes now run s) (hshows : v.Shows s)
    (hmetadata : version = .indexed → v.metadata = .ok (s.metadata.map Metadata.withoutEmpty)) :
    x.HoldsRun version now v run := by
  obtain ⟨first, hfirst, rfl⟩ := h.spec
  have hpoints : SeriesView.points v.samples = run.map (Sample.point now) := by
    rw [hshows.points, specOf, List.map_map]
    rfl
  refine ⟨?_, hpoints, hshows.histograms, hshows.exemplars, fun s hs => ?_, fun hversion s hs => ?_⟩
  · intro hnil
    rw [hnil] at hpoints
    rw [List.map_eq_nil_iff.mp hpoints.symm] at hfirst
    cases hfirst
  · obtain ⟨hname, hlabels⟩ := h.same s hs first hfirst
    have hbyName : s.labelsByName = ⟨(x.specOf now first run).labelsByName⟩ := by
      simp only [Sample.labelsByName, SeriesSpec.labelsByName, specOf, hname, hlabels]
    have hwritten : s.written = (x.specOf now first run).labels := by
      simp only [Sample.written, specOf, hname, hlabels]
    rw [hshows.labels, hbyName, hwritten]
    exact ⟨rfl, SeriesSpec.sortOf_labelsByName _⟩
  · rw [hmetadata hversion, (h.same s hs first hfirst).1]
    rfl

theorem forall₂_holdsRun (h : x.message version now = .ok m) :
    List.Forall₂ (x.HoldsRun version now) m.series (x.samples.splitBy Sample.sameSeries) :=
  forall₂_of_forall₂ (Message.tells_ofSpecs h) (forall₂_describes x now)
    fun _ _ _ hv hrun => hrun.holdsRun hv.1 hv.2

/-! ### Texts of a scrape -/

/-- The texts that a series of a sample refers to. -/
def textsOf (x : Scrape) (s : Sample) : List String :=
  SymbolTable.textsOf s.written ++ (x.describe? s.name).toList.flatMap (·.texts)

/-- The names and values of the labels, and what the metadata say of the names. -/
def texts (x : Scrape) : List String := x.samples.flatMap x.textsOf

theorem mem_texts_specOf {first : Sample} {run : List Sample} {t : String} :
    t ∈ (x.specOf now first run).texts ↔ t ∈ x.textsOf first := by
  have hlabels : t ∈ SymbolTable.textsOf (x.specOf now first run).labelsByName
      ↔ t ∈ SymbolTable.textsOf first.written :=
    ((x.specOf now first run).perm_labelsByName.flatMap_right _).mem_iff
  have hexemplars : (x.specOf now first run).exemplars = [] := rfl
  rw [SeriesSpec.texts, textsOf, hexemplars, List.flatMap_nil, List.nil_append, List.mem_append,
    List.mem_append, hlabels]
  rfl

theorem mem_texts_specs {t : String} : t ∈ (x.specs now).flatMap (·.texts) ↔ t ∈ x.texts := by
  have hruns := forall₂_describes x now
  rw [texts, List.mem_flatMap, List.mem_flatMap]
  constructor
  · rintro ⟨s, hs, ht⟩
    obtain ⟨run, hrun, hdescribes⟩ := exists_of_forall₂_of_mem hruns.flip hs
    obtain ⟨first, hfirst, rfl⟩ := hdescribes.spec
    exact ⟨first, (runs_samples x).mem_of_mem hrun hfirst, mem_texts_specOf.mp ht⟩
  · rintro ⟨a, ha, ht⟩
    obtain ⟨run, hrun, ha⟩ := (runs_samples x).exists_run ha
    obtain ⟨s, hs, hdescribes⟩ := exists_of_forall₂_of_mem hruns hrun
    obtain ⟨first, hfirst, rfl⟩ := hdescribes.spec
    obtain ⟨hname, hlabels⟩ := hdescribes.same a ha first hfirst
    refine ⟨_, hs, mem_texts_specOf.mpr ?_⟩
    rw [textsOf, Sample.written, hname, hlabels] at ht
    exact ht

theorem exists_message_iff : (∃ m, x.message version now = .ok m) ↔
    (version = .indexed → numDistinct x.texts < UInt32.size) := by
  cases version with
  | legacy =>
    refine iff_of_true (Message.exists_legacy_iff.mpr fun s hs => ?_) (fun h => nomatch h)
    obtain ⟨run, -, hdescribes⟩ := exists_of_forall₂_of_mem (forall₂_describes x now).flip hs
    obtain ⟨first, -, rfl⟩ := hdescribes.spec
    rfl
  | indexed =>
    rw [message, Message.exists_indexed_iff, numDistinct_congr fun _ => mem_texts_specs]
    exact ⟨fun h _ => h, fun h => h rfl⟩

/-! ### Series and samples -/

/-- A scrape has a message as long as the table of symbols has room for its texts. The message holds
the samples in their order and a series for each maximal run of samples of one name and label
list. -/
theorem grouped_message (x : Scrape) (version : Version) (now : Int64) :
    ((∃ m, x.message version now = .ok m) ↔
      (version = .indexed → numDistinct x.texts < UInt32.size)) ∧
    ∀ m, x.message version now = .ok m → m.version = version ∧
      m.series.flatMap (fun v => SeriesView.points v.samples) = x.samples.map (Sample.point now) ∧
      ∃ runs, Runs SameSeries x.samples runs ∧
        List.Forall₂ (x.HoldsRun version now) m.series runs := by
  refine ⟨exists_message_iff, fun m hm => ?_⟩
  have hruns := forall₂_holdsRun hm
  refine ⟨Message.version_ofSpecs hm, ?_, _, runs_samples x, hruns⟩
  have hpoints := map_eq_map_of_forall₂ hruns fun v run h => h.points
  rw [List.flatMap_def, hpoints, ← List.map_flatten, List.flatten_splitBy]

/-! ### Neighbouring series -/

/-- Two runs whose samples have the same labels by name are two series of the same labels. -/
theorem labels_ne_iff_of_holdsRun {v w : SeriesView} {run next : List Sample}
    (hv : x.HoldsRun version now v run) (hw : x.HoldsRun version now w next) :
    v.labels ≠ w.labels ↔
      ∀ a ∈ run.getLast?, ∀ b ∈ next.head?, a.labelsByName ≠ b.labelsByName := by
  have hlabels : ∀ a ∈ run, ∀ b ∈ next,
      (v.labels = w.labels ↔ a.labelsByName = b.labelsByName) := by
    intro a ha b hb
    rw [(hv.labels a ha).1, (hw.labels b hb).1, Except.ok.injEq]
  constructor
  · intro hne a ha b hb heq
    exact hne ((hlabels a (List.mem_of_getLast? ha) b (List.mem_of_head? hb)).mpr heq)
  · intro hne heq
    have ha := List.getLast?_eq_some_getLast hv.run_ne_nil
    have hb := List.head?_eq_some_head hw.run_ne_nil
    refine hne _ ha _ hb ((hlabels _ (List.mem_of_getLast? ha) _ (List.mem_of_head? hb)).mp heq)

/-- Neighbouring series of a scrape's message have different labels exactly if neighbouring samples
whose labels are the same by name are written in the same order. -/
theorem labels_ne_iff (h : x.message version now = .ok m) :
    (∀ p ∈ neighbours m.series, p.1.labels ≠ p.2.labels) ↔
      ∀ p ∈ neighbours x.samples, p.1.labelsByName = p.2.labelsByName → SameSeries p.1 p.2 := by
  calc (∀ p ∈ neighbours m.series, p.1.labels ≠ p.2.labels)
    _ ↔ m.series.IsChain fun v w => v.labels ≠ w.labels :=
      forall_neighbours_iff_isChain (R := fun v w : SeriesView => v.labels ≠ w.labels)
    _ ↔ (x.samples.splitBy Sample.sameSeries).IsChain fun run next =>
        ∀ a ∈ run.getLast?, ∀ b ∈ next.head?, a.labelsByName ≠ b.labelsByName :=
      isChain_iff_of_forall₂ (forall₂_holdsRun h) fun _ _ _ _ => labels_ne_iff_of_holdsRun
    _ ↔ x.samples.IsChain fun a b => SameSeries a b ∨ a.labelsByName ≠ b.labelsByName :=
      (runs_samples x).isChain_or_iff.symm
    _ ↔ ∀ p ∈ neighbours x.samples, SameSeries p.1 p.2 ∨ p.1.labelsByName ≠ p.2.labelsByName :=
      (forall_neighbours_iff_isChain
        (R := fun a b : Sample => SameSeries a b ∨ a.labelsByName ≠ b.labelsByName)).symm
    _ ↔ ∀ p ∈ neighbours x.samples, p.1.labelsByName = p.2.labelsByName → SameSeries p.1 p.2 :=
      forall₂_congr fun _ _ => or_comm.trans imp_iff_not_or.symm

/-- Two samples that are written alike, and one of another series. -/
def alike : Scrape :=
  ⟨[], [⟨"a", [("y", "2"), ("x", "1")], .one, none⟩, ⟨"a", [("y", "2"), ("x", "1")], .zero, none⟩,
    ⟨"b", [("y", "2")], .one, none⟩]⟩

theorem labels_ne_iff_alike : ∃ m, alike.message .indexed 5 = .ok m ∧ m.series.length = 2 ∧
    ∀ p ∈ neighbours m.series, p.1.labels ≠ p.2.labels := by
  obtain ⟨m, hm, hlength⟩ : ∃ m, alike.message .indexed 5 = .ok m ∧ m.series.length = 2 :=
    ⟨_, by cbv, rfl⟩
  refine ⟨m, hm, hlength, (labels_ne_iff hm).mpr fun p hp heq => ?_⟩
  rcases List.mem_pair.mp hp with rfl | rfl
  · exact ⟨rfl, rfl⟩
  · have hpairs := congrArg (fun l => l.pairs.length) heq
    simp [Sample.labelsByName] at hpairs

/-- The labels of one series, written in two orders. -/
def swapped : Scrape :=
  ⟨[], [⟨"a", [("x", "1"), ("y", "2")], .one, some 1700000000000⟩,
    ⟨"a", [("y", "2"), ("x", "1")], .one, some 1700000000001⟩]⟩

/-- Two neighbouring series of the same labels. -/
theorem split_swapped :
    read .text ("a\x7bx=\"1\",y=\"2\"\x7d 1 1700000000000\n" ++
      "a\x7by=\"2\",x=\"1\"\x7d 1 1700000000001") = .ok swapped ∧
    ∃ m v w, swapped.message .legacy 0 = .ok m ∧ (v, w) ∈ neighbours m.series ∧
      v.labels = w.labels := by
  let labels : List Legacy.Label := [⟨"__name__", "a"⟩, ⟨"x", "1"⟩, ⟨"y", "2"⟩]
  let first : Legacy.Series := ⟨labels, [⟨.one, 1700000000000⟩], []⟩
  let second : Legacy.Series := ⟨labels, [⟨.one, 1700000000001⟩], []⟩
  have hm : swapped.message .legacy 0 = .ok (.legacy ⟨[first, second], []⟩) := by cbv
  exact ⟨by cbv, _, .legacy _ first, .legacy _ second, hm, List.mem_singleton_self _, rfl⟩

end Scrape

end RemoteWrite
