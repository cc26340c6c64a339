import RemoteWrite.Proofs.Series.InternCalls
import RemoteWrite.Proofs.Text.Bytes
import RemoteWrite.Rules.Message

/-!
# The types of a metric family

A family is judged by all series that resolve, have a name and metadata and say their type. There is
one finding for each such family, families in byte order, and it passes exactly if those series
agree (`Rules.familiesJudged`). Neither the order in which the series stand nor an order in which
groups come out of a table has a part in it.
-/

namespace RemoteWrite

/-- The series is of the family and says its type. -/
def SeriesView.Typed (v : SeriesView) (family : String) (type : MetricType) : Prop :=
  ∃ (labels : Labels) (name : String) (d : Metadata), v.labels = .ok labels ∧
    labels.metric? = some name ∧ v.metadata = .ok (some d) ∧ d.type ≠ .unspecified ∧
      Family.ofSeries name = family ∧ d.type = type

/-- The same series in another order, and everything beside them as it is. -/
inductive Message.Reorders : Message → Message → Prop
  | legacy {series series' : List Legacy.Series} (metadata : List Legacy.FamilyInfo)
      (h : series.Perm series') :
      Reorders (.legacy ⟨series, metadata⟩) (.legacy ⟨series', metadata⟩)
  | indexed {series series' : List Indexed.Series} (symbols : List String)
      (h : series.Perm series') :
      Reorders (.indexed ⟨symbols, series⟩) (.indexed ⟨symbols, series'⟩)

theorem length_eraseDups_eq_one_iff {α : Type} [BEq α] [LawfulBEq α] {as : List α} (h : as ≠ []) :
    as.eraseDups.length = 1 ↔ ∀ a ∈ as, ∀ b ∈ as, a = b := by
  obtain ⟨a, as, rfl⟩ := List.exists_cons_of_ne_nil h
  have hrest : (as.filter fun b => !b == a).eraseDups = [] ↔ ∀ b ∈ as, b = a := by
    simp [List.eq_nil_iff_forall_not_mem]
  rw [List.eraseDups_cons, List.length_cons, Nat.add_eq_right, List.length_eq_zero_iff, hrest]
  constructor
  · intro hall b hb c hc
    have hcons : ∀ b ∈ a :: as, b = a := List.forall_mem_cons.mpr ⟨rfl, hall⟩
    rw [hcons b hb, hcons c hc]
  · intro hall b hb
    exact hall b (List.mem_cons_of_mem a hb) a List.mem_cons_self

namespace Rules

variable {m m' : Message} {v : SeriesView} {family : String} {type : MetricType}
  {place : Location} {groups : List (String × List MetricType)}

/-! ### Series that say their type -/

theorem familyType?_eq_some_iff : familyType? v = some (family, type) ↔ v.Typed family type := by
  unfold familyType? SeriesView.Typed SeriesView.metric?
  cases v.labels with
  | error e => simp
  | ok labels =>
    cases hname : labels.metric? with
    | none => simp [hname]
    | some name =>
      rcases v.metadata with e | _ | d
      · simp
      · simp
      · by_cases hd : d.type = .unspecified
        · simp [hname, hd]
        · simp [hname, hd]

/-- The types that the series of a family say, in the order of the series. -/
def typesOf (m : Message) (family : String) : List MetricType :=
  ((m.series.filterMap familyType?).filter (·.1 = family)).map (·.2)

/-- The families that are judged. -/
def familyNames (m : Message) : List String := (familyTypes m).map (·.1)

theorem mem_typesOf_iff : type ∈ typesOf m family ↔ ∃ v ∈ m.series, v.Typed family type := by
  simp only [typesOf, List.mem_map, List.mem_filter, List.mem_filterMap, familyType?_eq_some_iff,
    decide_eq_true_eq, Prod.exists]
  constructor
  · rintro ⟨_, _, ⟨⟨v, hv, htyped⟩, rfl⟩, rfl⟩
    exact ⟨v, hv, htyped⟩
  · rintro ⟨v, hv, htyped⟩
    exact ⟨family, type, ⟨⟨v, hv, htyped⟩, rfl⟩, rfl⟩

theorem familyNames_eq :
    familyNames m = Text.sort ((m.series.filterMap familyType?).map (·.1)).eraseDups := by
  simp only [familyNames, familyTypes, List.map_map, Function.comp_def, List.map_id']

theorem familyTypes_eq :
    familyTypes m = (familyNames m).map fun family => (family, (typesOf m family).eraseDups) := by
  rw [familyNames_eq]
  rfl

theorem mem_familyNames_iff :
    family ∈ familyNames m ↔ ∃ v ∈ m.series, ∃ type, v.Typed family type := by
  rw [familyNames_eq, (Text.perm_sort _).mem_iff, List.mem_eraseDups]
  simp only [List.mem_map, List.mem_filterMap, Prod.exists, familyType?_eq_some_iff]
  constructor
  · rintro ⟨_, type, ⟨v, hv, htyped⟩, rfl⟩
    exact ⟨v, hv, type, htyped⟩
  · rintro ⟨v, hv, type, htyped⟩
    exact ⟨family, type, ⟨v, hv, htyped⟩, rfl⟩

theorem pairwise_familyNames :
    (familyNames m).Pairwise fun a b => Text.bytes a < Text.bytes b := by
  rw [familyNames_eq]
  exact Text.pairwise_lt_sort (nodup_eraseDups _)

theorem mem_familyNames_iff_typesOf : family ∈ familyNames m ↔ typesOf m family ≠ [] := by
  rw [mem_familyNames_iff, Ne, List.eq_nil_iff_forall_not_mem]
  simp only [mem_typesOf_iff, not_forall, not_not]
  exact ⟨fun ⟨v, hv, type, h⟩ => ⟨type, v, hv, h⟩, fun ⟨type, v, hv, h⟩ => ⟨v, hv, type, h⟩⟩

/-! ### Findings -/

/-- The finding about one family. -/
structure JudgesFamily (m : Message) (place : Location) (family : String) (f : Finding) : Prop where
  check : f.check = "metadata-family-consistent"
  level : f.level = .should
  location : f.location = place
  passed : f.passed = true ↔ ∀ v ∈ m.series, ∀ w ∈ m.series, ∀ type other,
    v.Typed family type → w.Typed family other → type = other
  /-- Whoever reads of a conflict is told where it is. -/
  named : f.passed = false →
    ∃ types, f.message = s!"family {family} has conflicting types " ++ types

theorem judgesFamily (h : family ∈ familyNames m) (place : Location) :
    JudgesFamily m place family (.of place .should "metadata-family-consistent"
      ((typesOf m family).eraseDups.length = 1) (s!"family {family} has conflicting types "
        ++ Text.bracketed ((typesOf m family).eraseDups.map (·.name)))) where
  check := rfl
  level := rfl
  location := rfl
  passed := by
    show decide _ = true ↔ _
    rw [decide_eq_true_iff, length_eraseDups_eq_one_iff (mem_familyNames_iff_typesOf.mp h)]
    simp only [mem_typesOf_iff]
    constructor
    · intro hall v hv w hw type other htype hother
      exact hall type ⟨v, hv, htype⟩ other ⟨w, hw, hother⟩
    · rintro hall type ⟨v, hv, htype⟩ other ⟨w, hw, hother⟩
      exact hall v hv w hw type other htype hother
  named hpassed := ⟨_, if_neg (Bool.eq_false_iff.mp hpassed)⟩

theorem families_eq : families m place = (familyNames m).map fun family =>
    .of place .should "metadata-family-consistent" ((typesOf m family).eraseDups.length = 1)
      (s!"family {family} has conflicting types "
        ++ Text.bracketed ((typesOf m family).eraseDups.map (·.name))) := by
  rw [families, familyTypes_eq, List.map_map]
  rfl

/-! ### Other orders -/

/-- The groups of a table of the families, in any order. -/
structure Groups (m : Message) (groups : List (String × List MetricType)) : Prop where
  nodup : (groups.map (·.1)).Nodup
  mem_iff : ∀ family types, (family, types) ∈ groups ↔
    family ∈ familyNames m ∧ types = typesOf m family

/-- Sorted by family, the groups are in one order only. -/
theorem Groups.sort_eq (h : Groups m groups) :
    (groups.mergeSort fun a b => Text.le a.1 b.1)
      = (familyNames m).map fun family => (family, typesOf m family) := by
  have hnames : (familyNames m).Nodup := by
    rw [familyNames_eq]
    exact (Text.perm_sort _).nodup_iff.mpr (nodup_eraseDups _)
  have hperm : groups.Perm ((familyNames m).map fun family => (family, typesOf m family)) := by
    refine (List.perm_ext_iff_of_nodup h.nodup.of_map ?_).mpr ?_
    · exact hnames.map fun a b hab => (Prod.ext_iff.mp hab).1
    · rintro ⟨family, types⟩
      rw [h.mem_iff]
      simp only [List.mem_map, Prod.mk.injEq]
      constructor
      · rintro ⟨hfamily, rfl⟩
        exact ⟨family, hfamily, rfl, rfl⟩
      · rintro ⟨_, hfamily, rfl, rfl⟩
        exact ⟨hfamily, rfl⟩
  have hsorted := List.pairwise_mergeSort (fun a b c => Text.le_trans a.1 b.1 c.1)
    (fun a b => Text.le_total a.1 b.1) groups
  have hascending : ((familyNames m).map fun family => (family, typesOf m family)).Pairwise
      fun a b => Text.le a.1 b.1 = true := by
    rw [List.pairwise_map, familyNames_eq]
    exact Text.pairwise_sort _
  refine ((List.mergeSort_perm _ _).trans hperm).eq_of_pairwise ?_ hsorted hascending
  rintro ⟨family, types⟩ ⟨family', types'⟩ hmem hmem' hle hle'
  have hfamily : family = family' := Text.le_antisymm hle hle'
  subst hfamily
  obtain ⟨_, -, heq⟩ := List.mem_map.mp hmem'
  cases heq
  rw [((h.mem_iff _ _).mp (List.mem_mergeSort.mp hmem)).2]

/-- What a series says does not depend on the series around it. -/
theorem perm_of_reorders (h : m.Reorders m') :
    (m.series.filterMap familyType?).Perm (m'.series.filterMap familyType?) := by
  cases h with
  | @legacy series series' metadata h =>
    have hview : ∀ series' s, familyType? (.legacy ⟨series', metadata⟩ s)
        = familyType? (.legacy ⟨series, metadata⟩ s) := fun _ _ => rfl
    simp only [Message.series, List.filterMap_map, Function.comp_def, hview series']
    exact h.filterMap _
  | @indexed series series' symbols h =>
    have hview : ∀ series' s, familyType? (.indexed ⟨symbols, series'⟩ s)
        = familyType? (.indexed ⟨symbols, series⟩ s) := fun _ _ => rfl
    simp only [Message.series, List.filterMap_map, Function.comp_def, hview series']
    exact h.filterMap _

theorem familyNames_of_reorders (h : m.Reorders m') : familyNames m' = familyNames m := by
  rw [familyNames_eq, familyNames_eq]
  refine Text.sort_eq_of_perm ?_
  rw [List.perm_ext_iff_of_nodup (nodup_eraseDups _) (nodup_eraseDups _)]
  intro family
  rw [List.mem_eraseDups, List.mem_eraseDups, ((perm_of_reorders h).map _).mem_iff]

theorem typesOf_of_reorders (h : m.Reorders m') (family : String) :
    (typesOf m family).Perm (typesOf m' family) :=
  ((perm_of_reorders h).filter _).map _

theorem passed_of_reorders (h : m.Reorders m') (place : Location) :
    (families m' place).map (·.passed) = (families m place).map (·.passed) := by
  rw [families_eq, families_eq, familyNames_of_reorders h, List.map_map, List.map_map]
  refine List.map_congr_left fun family hfamily => ?_
  have hperm := typesOf_of_reorders h family
  have hne : typesOf m family ≠ [] := mem_familyNames_iff_typesOf.mp hfamily
  have hne' : typesOf m' family ≠ [] :=
    mem_familyNames_iff_typesOf.mp (familyNames_of_reorders h ▸ hfamily)
  refine decide_eq_decide.mpr ?_
  rw [length_eraseDups_eq_one_iff hne, length_eraseDups_eq_one_iff hne']
  simp only [hperm.mem_iff]

/-! ### Everything together -/

/-- How families are judged in a message. -/
structure FamiliesJudged (m : Message) (place : Location) : Prop where
  ascending : (familyNames m).Pairwise fun a b => Text.bytes a < Text.bytes b
  mem_iff : ∀ family, family ∈ familyNames m ↔ ∃ v ∈ m.series, ∃ type, v.Typed family type
  /-- One finding for each family, in their order. -/
  judged : List.Forall₂ (JudgesFamily m place) (familyNames m) (families m place)
  reordered : ∀ m', m.Reorders m' → familyNames m' = familyNames m ∧
    (families m' place).map (·.passed) = (families m place).map (·.passed)
  grouped : ∀ groups, Groups m groups →
    (groups.mergeSort fun a b => Text.le a.1 b.1).map (fun g => (g.1, g.2.eraseDups))
      = familyTypes m

theorem familiesJudged (m : Message) (place : Location) : FamiliesJudged m place where
  ascending := pairwise_familyNames
  mem_iff _ := mem_familyNames_iff
  judged := by
    rw [families_eq, List.forall₂_map_right_iff, List.forall₂_same]
    exact fun family hfamily => judgesFamily hfamily place
  reordered m' h := ⟨familyNames_of_reorders h, passed_of_reorders h place⟩
  grouped groups h := by
    rw [h.sort_eq, List.map_map, familyTypes_eq]
    rfl

end Rules

end RemoteWrite
