import RemoteWrite.Proofs.Rules.Described

/-!
# Metadata by family

A legacy message lists metadata by family, of each family what is given of it first. A series asks
for the first entry under any of three spellings of its name, and two of them may be the names of
other families: so it is told of its own family exactly if the first description under a spelling
is of that family (`Message.metadata_ofSpecs`).
-/

namespace RemoteWrite

/-- What the family of a series may be listed under. -/
def Family.spellings (name : String) : List String := [ofSeries name, name, stripClassic name]

namespace SeriesSpec

variable {specs : List SeriesSpec} {families : List String} {t : SeriesSpec}

/-- The first description with metadata of one of the families. -/
def describing? (families : List String) (specs : List SeriesSpec) : Option SeriesSpec :=
  specs.find? fun s => s.metadata.isSome ∧ s.family ∈ families

/-- What the description gives, where an empty text counts as none. -/
def given (s : SeriesSpec) : Option Metadata := s.metadata.map Metadata.withoutEmpty

theorem family_mem_of_describing? (h : describing? families specs = some t) :
    t.family ∈ families := by
  have ht := List.find?_some h
  exact (of_decide_eq_true ht).2

/-- Of more families the first description may be another one, unless it is of one of these. -/
theorem describing?_eq_iff {more : List String} (hsub : families ⊆ more)
    (specs : List SeriesSpec) :
    describing? more specs = describing? families specs ↔
      ∀ t, describing? more specs = some t → t.family ∈ families := by
  constructor
  · intro heq t ht
    exact family_mem_of_describing? (heq ▸ ht)
  · intro hfamily
    cases hmore : describing? more specs with
    | none =>
      symm
      refine List.find?_eq_none.mpr fun s hs hp => List.find?_eq_none.mp hmore s hs ?_
      have hp := of_decide_eq_true hp
      exact decide_eq_true ⟨hp.1, hsub hp.2⟩
    | some t =>
      symm
      obtain ⟨ht, before, after, rfl, hbefore⟩ := List.find?_eq_some_iff_append.mp hmore
      have hmem := hfamily t hmore
      refine List.find?_eq_some_iff_append.mpr
        ⟨decide_eq_true ⟨(of_decide_eq_true ht).1, hmem⟩, before, after, rfl, fun s hs => ?_⟩
      have hnot := hbefore s hs
      rw [Bool.not_eq_true', decide_eq_false_iff_not] at hnot ⊢
      exact fun hp => hnot ⟨hp.1, hsub hp.2⟩

/-- Sorting keeps the first label of each name the first one. -/
theorem get?_labelsByName (s : SeriesSpec) (name : String) :
    (Labels.mk s.labelsByName).get? name = (Labels.mk s.labels).get? name := by
  rw [Labels.get?, Labels.get?, ← List.head?_filter, ← List.head?_filter, s.filter_labelsByName]

end SeriesSpec

/-! ### Entries -/

namespace Legacy

open SeriesSpec

variable {entries : List FamilyInfo} {specs : List SeriesSpec} {families : List String}

/-- The entry that a description asks for. -/
def entryOf? (s : SeriesSpec) : Option FamilyInfo :=
  s.metadata.map fun d => ⟨d.type.number, s.family, d.help.getD "", d.unit.getD ""⟩

/-- What an entry says to a series. -/
def FamilyInfo.read (f : FamilyInfo) : RemoteWrite.Metadata :=
  ⟨.ofNumber f.type, SeriesView.nonempty? f.help, SeriesView.nonempty? f.unit⟩

theorem nonempty?_getD (text : Option String) :
    SeriesView.nonempty? (text.getD "") = text.filter (· ≠ "") := by
  cases text with
  | none => rfl
  | some s => by_cases hs : s = "" <;> simp [SeriesView.nonempty?, Option.filter_some, hs]

theorem map_read_entryOf? (s : SeriesSpec) : (entryOf? s).map FamilyInfo.read = s.given := by
  rw [entryOf?, given, Option.map_map]
  congr 1
  funext d
  simp only [Function.comp_apply, FamilyInfo.read, nonempty?_getD, MetricType.ofNumber_number,
    Metadata.withoutEmpty]

/-- An entry that is left out has one of its family before it, which is found under the same
spellings. -/
theorem find?_addMetadata (entries : List FamilyInfo) (s : SeriesSpec) (families : List String) :
    (addMetadata entries s).find? (·.family ∈ families)
      = (entries.find? (·.family ∈ families)).or
          ((entryOf? s).filter fun f => f.family ∈ families) := by
  unfold addMetadata entryOf?
  -- the name of the family does not matter here
  generalize s.family = family
  cases s.metadata with
  | none => simp
  | some d =>
    simp only [Option.map_some, Option.filter_some]
    split
    · rw [List.find?_append, List.find?_singleton]
    · next hknown =>
      obtain ⟨f, hf, hfamily⟩ : ∃ f ∈ entries, f.family = family := by simpa using hknown
      by_cases hmem : family ∈ families
      · have hsome : (entries.find? (·.family ∈ families)).isSome = true :=
          List.find?_isSome.mpr ⟨f, hf, decide_eq_true (hfamily ▸ hmem)⟩
        rw [Option.or_of_isSome hsome]
      · rw [if_neg (by simpa using hmem), Option.or_none]

theorem find?_foldl_addMetadata (entries : List FamilyInfo) (specs : List SeriesSpec)
    (families : List String) :
    (specs.foldl addMetadata entries).find? (·.family ∈ families)
      = (entries.find? (·.family ∈ families)).or ((describing? families specs).bind entryOf?) := by
  induction specs generalizing entries with
  | nil => simp [describing?]
  | cons s specs ih =>
    rw [List.foldl_cons, ih, find?_addMetadata, Option.or_assoc]
    congr 1
    rw [describing?, describing?, List.find?_cons]
    cases hs : s.metadata with
    | none => simp [entryOf?, hs]
    | some d =>
      by_cases hmem : s.family ∈ families <;> simp [entryOf?, hs, hmem, Option.filter_some]

theorem metric?_ofSpec (m : Message) (s : SeriesSpec) :
    (SeriesView.legacy m (Series.ofSpec s)).metric? = (Labels.mk s.labels).metric? := by
  rw [SeriesView.metric?, labels_ofSpec]
  exact s.get?_labelsByName _

/-- A series is told what the first description under a spelling of its name gives. -/
theorem metadata_ofSpec {m : Message} (h : m.metadata = specs.foldl addMetadata [])
    (s : SeriesSpec) :
    (SeriesView.legacy m (Series.ofSpec s)).metadata = .ok ((Labels.mk s.labels).metric?.bind
      fun name => (describing? (Family.spellings name) specs).bind given) := by
  simp only [SeriesView.metadata, metric?_ofSpec]
  cases (Labels.mk s.labels).metric? with
  | none => rfl
  | some name =>
    have hspellings : (fun f : FamilyInfo => decide (f.family = Family.ofSeries name ∨
        f.family = name ∨ f.family = Family.stripClassic name))
        = fun f => decide (f.family ∈ Family.spellings name) := by
      simp [Family.spellings]
    have hfound := find?_foldl_addMetadata [] specs (Family.spellings name)
    rw [List.find?_nil, Option.none_or] at hfound
    simp only [hspellings, h, hfound, Option.bind_some]
    refine congrArg Except.ok ?_
    show ((describing? (Family.spellings name) specs).bind entryOf?).map FamilyInfo.read = _
    rw [Option.map_bind]
    simp only [Function.comp_def, map_read_entryOf?]

end Legacy

/-! ### Messages -/

namespace Message

open SeriesSpec

variable {specs : List SeriesSpec} {m : Message}

theorem eq_legacy_of_ofSpecs (h : ofSpecs .legacy specs = .ok m) :
    m = .legacy ⟨specs.map Legacy.Series.ofSpec, specs.foldl Legacy.addMetadata []⟩ := by
  rw [ofSpecs, Legacy.Message.ofSpecs] at h
  split at h
  · cases h; rfl
  · cases h

/-- A series that has a name is told what the first description under a spelling of it gives. This
is the first description of its family exactly if it is of its family at all. -/
theorem metadata_ofSpecs (h : ofSpecs .legacy specs = .ok m) :
    List.Forall₂ (fun v s => ∀ name, (Labels.mk s.labels).metric? = some name →
      v.metadata = .ok ((describing? (Family.spellings name) specs).bind given) ∧
      (describing? (Family.spellings name) specs = describing? [Family.ofSeries name] specs ↔
        ∀ t, describing? (Family.spellings name) specs = some t →
          t.family = Family.ofSeries name)) m.series specs := by
  rw [eq_legacy_of_ofSpecs h, series, List.map_map, List.forall₂_map_left_iff, List.forall₂_same]
  intro s hs name hname
  constructor
  · have hmetadata := Legacy.metadata_ofSpec
      (m := ⟨specs.map Legacy.Series.ofSpec, specs.foldl Legacy.addMetadata []⟩) rfl s
    rwa [hname] at hmetadata
  · have hsub : [Family.ofSeries name] ⊆ Family.spellings name := by simp [Family.spellings]
    simpa only [List.mem_singleton] using describing?_eq_iff hsub specs

/-- The family of the counter is the name of the gauge, whose own family is `x`. -/
def namesakes : List SeriesSpec :=
  [⟨[("__name__", "x_count_total")], [⟨.one, 1⟩], [], [], some ⟨.counter, some "a", none⟩, 0⟩,
    ⟨[("__name__", "x_count")], [⟨.one, 1⟩], [], [], some ⟨.gauge, some "b", none⟩, 0⟩]

theorem metadata_ofSpecs_namesakes : ∃ (m : Message) (v : SeriesView),
    ofSpecs .legacy namesakes = .ok m ∧ m.series[1]? = some v ∧
    v.metadata = .ok ((describing? (Family.spellings "x_count") namesakes).bind given) ∧
    describing? (Family.spellings "x_count") namesakes
      ≠ describing? [Family.ofSeries "x_count"] namesakes := by
  obtain ⟨m, hm⟩ : ∃ m, ofSpecs .legacy namesakes = .ok m := ⟨_, rfl⟩
  have hrel := rel_getElem?_of_forall₂ (metadata_ofSpecs hm) 1
  generalize hv : m.series[1]? = v? at hrel
  obtain @⟨v, s, hvs⟩ := hrel
  obtain ⟨hmetadata, hiff⟩ := hvs "x_count" rfl
  refine ⟨m, v, hm, hv, hmetadata, fun heq => ?_⟩
  have hfamily := hiff.mp heq _ rfl
  exact absurd hfamily (by cbv)

/-- The gauge is told of the counter, although the first description of its family is its own. -/
theorem misled_namesakes : ∃ (m : Message) (v : SeriesView),
    ofSpecs .legacy namesakes = .ok m ∧ m.series[1]? = some v ∧
    v.metric? = some "x_count" ∧ v.metadata = .ok (some ⟨.counter, some "a", none⟩) ∧
    (describing? [Family.ofSeries "x_count"] namesakes).bind given
      = some ⟨.gauge, some "b", none⟩ := by
  refine ⟨_, _, rfl, rfl, ?_, ?_, ?_⟩
  · cbv
  · cbv
  · cbv

end Message

end RemoteWrite
