import RemoteWrite.Proofs.Runs
import RemoteWrite.Proofs.Series.Spec
import RemoteWrite.Scrape

/-!
# Messages of a scrape

`Scrape.labelledSamples_message`: the message of a scrape holds its samples in their order, each with
its own labels by name. Taken up one after another, the samples are grouped into runs of one name and
label list, each of which is a series (`Scrape.specs_eq`).
-/

namespace RemoteWrite.Scrape

variable {x : Scrape} {now : Int64} {version : Version} {m : Message}

/-- The labels of a sample, its metric name among them, by name in byte order; labels of one name
keep their order. -/
def Sample.labelsByName (s : Sample) : Labels :=
  ⟨((Labels.metricLabel, s.name) :: s.labels).mergeSort fun a b => Text.le a.1 b.1⟩

/-- A sample as a message has to hold it; without a timestamp it gets `now`. -/
def Sample.labelled (now : Int64) (s : Sample) : Except Error Labels × Binary64 × Int64 :=
  (.ok s.labelsByName, s.value, s.timestamp.getD now)

theorem sameSeries_iff {a b : Sample} :
    a.sameSeries b = true ↔ a.name = b.name ∧ a.labels = b.labels := by
  rw [Sample.sameSeries, Bool.and_eq_true, beq_iff_eq, beq_iff_eq]

theorem sameSeries_head {first s : Sample} {group : List Sample}
    (h : (first :: group).IsChain fun a b => a.sameSeries b = true) (hs : s ∈ first :: group) :
    s.name = first.name ∧ s.labels = first.labels := by
  let R (a b : Sample) : Prop := a.sameSeries b = true
  have : Trans R R R := ⟨fun hab hbc => sameSeries_iff.mpr
    ⟨(sameSeries_iff.mp hab).1.trans (sameSeries_iff.mp hbc).1,
      (sameSeries_iff.mp hab).2.trans (sameSeries_iff.mp hbc).2⟩⟩
  have hpairwise : (first :: group).Pairwise R := List.isChain_iff_pairwise.mp h
  rcases List.mem_cons.mp hs with rfl | hs
  · exact ⟨rfl, rfl⟩
  · obtain ⟨hname, hlabels⟩ := sameSeries_iff.mp (List.rel_of_pairwise_cons hpairwise hs)
    exact ⟨hname.symm, hlabels.symm⟩

/-! ### The loop over the samples -/

/-- The series of some groups of samples. -/
def specsOf (x : Scrape) (now : Int64) (groups : List (List Sample)) : List SeriesSpec :=
  groups.filterMap fun group => group.head?.map fun first => x.specOf now first group

theorem specsOf_concat {groups : List (List Sample)} {first : Sample} {group : List Sample} :
    x.specsOf now (groups ++ [first :: group])
      = x.specsOf now groups ++ [x.specOf now first (first :: group)] := List.filterMap_append

theorem addSample_of_related {specs : List SeriesSpec} {first last s : Sample} {group : List Sample}
    (h : last.sameSeries s = true) :
    x.addSample now (specs ++ [x.specOf now first group], some last) s
      = (specs ++ [x.specOf now first (group ++ [s])], some s) := by
  simp only [addSample, Option.any_some, h, if_true, List.getLast?_concat, List.dropLast_concat,
    Option.map_some, Option.toList_some, specOf, List.map_append, List.map_cons, List.map_nil]

theorem addSample_of_apart {specs : List SeriesSpec} {previous : Option Sample} {s : Sample}
    (h : previous.any (·.sameSeries s) = false) :
    x.addSample now (specs, previous) s = (specs ++ [x.specOf now s [s]], some s) := by
  simp only [addSample, h, Bool.false_eq_true, if_false, List.getLast?_concat, List.dropLast_concat,
    Option.map_some, Option.toList_some, specOf, List.map_nil, List.nil_append, List.map_cons]

/-- Of the samples so far the loop has the series of their groups, and the last sample. -/
theorem foldl_addSample (x : Scrape) (now : Int64) (seen : List Sample) :
    seen.foldl (x.addSample now) ([], none)
      = (x.specsOf now (seen.splitBy Sample.sameSeries), seen.getLast?) := by
  induction seen using List.reverseRecOn with
  | nil => rfl
  | append_singleton seen s ih =>
    rw [List.foldl_append, List.foldl_cons, List.foldl_nil, ih, List.getLast?_concat]
    cases h : seen.getLast?.any (·.sameSeries s) with
    | false =>
      have hapart : ∀ a ∈ seen.getLast?, a.sameSeries s = false := fun a ha => by
        rw [Option.mem_def.mp ha] at h
        exact h
      rw [addSample_of_apart h, splitBy_concat_of_apart hapart, specsOf_concat]
    | true =>
      have hne : seen.splitBy Sample.sameSeries ≠ [] := by
        rw [List.splitBy_ne_nil]
        rintro rfl
        cases h
      obtain ⟨groups, group, hgroups⟩ := (List.eq_nil_or_concat' _).resolve_left hne
      obtain ⟨last, hgroup, hlast⟩ := exists_last_of_splitBy hgroups
      rw [hlast, Option.any_some] at h
      obtain ⟨first, rest, rfl⟩ := List.exists_cons_of_ne_nil
        (List.ne_nil_of_mem_splitBy (hgroups ▸ List.mem_concat_self))
      rw [hlast, hgroups, specsOf_concat, addSample_of_related h,
        splitBy_concat_of_related hgroups hgroup h, List.cons_append, specsOf_concat]

/-- A series for each group of neighbours of one series. -/
theorem specs_eq (x : Scrape) (now : Int64) :
    x.specs now = x.specsOf now (x.samples.splitBy Sample.sameSeries) := by
  rw [specs, foldl_addSample]

/-! ### Samples of the series -/

/-- In a group of one series the labels of the first sample are those of all. -/
theorem labelledSamples_specOf {first : Sample} {group : List Sample}
    (h : (first :: group).IsChain fun a b => a.sameSeries b = true) :
    (x.specOf now first (first :: group)).labelledSamples
      = (first :: group).map (Sample.labelled now) := by
  rw [SeriesSpec.labelledSamples, specOf, List.map_map]
  refine List.map_congr_left fun s hs => ?_
  obtain ⟨hname, hlabels⟩ := sameSeries_head h hs
  simp only [Function.comp, Sample.labelled, Sample.timed, Sample.labelsByName,
    SeriesSpec.labelsByName, hname, hlabels]

theorem labelledSamples_groups {groups : List (List Sample)} (hnil : ∀ g ∈ groups, g ≠ [])
    (hchain : ∀ g ∈ groups, g.IsChain fun a b => a.sameSeries b = true) :
    (x.specsOf now groups).flatMap (·.labelledSamples)
      = groups.flatten.map (Sample.labelled now) := by
  induction groups with
  | nil => rfl
  | cons group groups ih =>
    rw [List.forall_mem_cons] at hnil hchain
    cases group with
    | nil => exact absurd rfl hnil.1
    | cons first group =>
      show (x.specOf now first (first :: group) :: x.specsOf now groups).flatMap _ = _
      rw [List.flatMap_cons, List.flatten_cons, List.map_append, ih hnil.2 hchain.2,
        labelledSamples_specOf hchain.1]

theorem labelledSamples_specs (x : Scrape) (now : Int64) :
    (x.specs now).flatMap (·.labelledSamples) = x.samples.map (Sample.labelled now) := by
  rw [specs_eq, labelledSamples_groups (fun g => List.ne_nil_of_mem_splitBy)
    fun g => List.isChain_of_mem_splitBy, List.flatten_splitBy]

theorem specs_eq_nil : x.specs now = [] ↔ x.samples = [] := by
  rw [specs_eq, specsOf, List.filterMap_eq_nil_iff]
  constructor
  · intro h
    rw [← List.splitBy_eq_nil (r := Sample.sameSeries), List.eq_nil_iff_forall_not_mem]
    intro g hg
    have hnone := h g hg
    rw [Option.map_eq_none_iff, List.head?_eq_none_iff] at hnone
    exact List.ne_nil_of_mem_splitBy hg hnone
  · intro h
    rw [h]
    exact fun _ hg => nomatch hg

theorem isEmpty_message (h : x.message version now = .ok m) :
    m.isEmpty = true ↔ x.samples = [] := by
  rw [Message.isEmpty, Message.size_ofSpecs h, beq_iff_eq, List.length_eq_zero_iff, specs_eq_nil]

theorem labelledSamples_message (h : x.message version now = .ok m) :
    m.labelledSamples = x.samples.map (Sample.labelled now) :=
  (Message.labelledSamples_ofSpecs h).trans (labelledSamples_specs x now)

end RemoteWrite.Scrape
