import Mathlib.Data.List.Nodup
import Mathlib.Data.List.SplitBy
import RemoteWrite.Proofs.Neighbours

/-!
# Maximal runs

A list falls into runs of neighbours that are related. `Runs` says which partition that is: nothing is
lost or reordered, what is related is together, and what is not related is apart.
-/

namespace RemoteWrite

variable {α β : Type} {R : α → α → Prop} {as : List α} {runs : List (List α)}

/-- The runs of a list whose neighbours are related; the last of a run is not related to the first
of the next. -/
structure Runs (R : α → α → Prop) (as : List α) (runs : List (List α)) : Prop where
  flatten : runs.flatten = as
  nonempty : ∀ run ∈ runs, run ≠ []
  within : ∀ run ∈ runs, run.IsChain R
  between : runs.IsChain fun run next => ∀ a ∈ run.getLast?, ∀ b ∈ next.head?, ¬ R a b

theorem runs_splitBy {r : α → α → Bool} (h : ∀ a b, r a b = true ↔ R a b) (as : List α) :
    Runs R as (as.splitBy r) where
  flatten := List.flatten_splitBy r as
  nonempty _ := List.ne_nil_of_mem_splitBy
  within _ hrun := (List.isChain_of_mem_splitBy hrun).imp fun a b => (h a b).mp
  between := by
    refine (List.isChain_getLast_head_splitBy r as).imp fun run next => ?_
    rintro ⟨hrun, hnext, hlast⟩ a ha b hb hR
    rw [List.getLast_of_mem_getLast? ha, List.head_of_mem_head? hb, (h a b).mpr hR] at hlast
    cases hlast

/-! ### One element more -/

/-- The last run ends with the last element. -/
theorem exists_last_of_splitBy {r : α → α → Bool} {run : List α}
    (hruns : as.splitBy r = runs ++ [run]) :
    ∃ a, run.getLast? = some a ∧ as.getLast? = some a := by
  have hrun : run ≠ [] := List.ne_nil_of_mem_splitBy (hruns ▸ List.mem_concat_self)
  have hlast := List.getLast?_eq_some_getLast hrun
  refine ⟨_, hlast, ?_⟩
  rw [← List.flatten_splitBy r as, hruns, List.flatten_concat, List.getLast?_append, hlast,
    Option.some_or]

/-- An element that is not related to the last one begins a run. -/
theorem splitBy_concat_of_apart {r : α → α → Bool} {b : α}
    (h : ∀ a ∈ as.getLast?, r a b = false) : (as ++ [b]).splitBy r = as.splitBy r ++ [[b]] :=
  List.splitBy_append_cons [] h

/-- An element that is related to the last one is in its run. -/
theorem splitBy_concat_of_related {r : α → α → Bool} {run : List α} {a b : α}
    (hruns : as.splitBy r = runs ++ [run]) (ha : run.getLast? = some a) (h : r a b = true) :
    (as ++ [b]).splitBy r = runs ++ [run ++ [b]] := by
  obtain ⟨hflatten, hnil, hchains, hbetween⟩ := List.splitBy_eq_iff.mp hruns
  obtain ⟨hruns, -, hbetween⟩ := List.isChain_append.mp hbetween
  rw [List.forall_mem_append, List.forall_mem_singleton] at hchains
  refine List.splitBy_eq_iff.mpr ⟨?_, ?_, ?_, ?_⟩
  · rw [hflatten, List.flatten_concat, List.flatten_concat, List.append_assoc]
  · simp only [List.mem_append, List.mem_singleton] at hnil ⊢
    exact not_or.mpr ⟨fun hmem => hnil (.inl hmem), fun h => List.append_ne_nil_of_right_ne_nil _
      (List.cons_ne_nil _ _) h.symm⟩
  · rw [List.forall_mem_append, List.forall_mem_singleton]
    refine ⟨hchains.1, List.isChain_append.mpr ⟨hchains.2, .singleton _, ?_⟩⟩
    rintro a' ha' b' hb'
    cases ha.symm.trans ha'
    cases hb'
    exact h
  · refine List.isChain_append.mpr ⟨hruns, .singleton _, ?_⟩
    rintro before hbefore next hnext
    cases hnext
    obtain ⟨hbefore, hrun, hr⟩ := hbetween before hbefore run rfl
    exact ⟨hbefore, List.append_ne_nil_of_left_ne_nil hrun _, by rwa [List.head_append_of_ne_nil hrun]⟩

namespace Runs

theorem nil_notMem (h : Runs R as runs) : [] ∉ runs := fun hnil => h.nonempty [] hnil rfl

theorem mem_of_mem (h : Runs R as runs) {run : List α} (hrun : run ∈ runs) {a : α} (ha : a ∈ run) :
    a ∈ as := h.flatten ▸ List.mem_flatten_of_mem hrun ha

theorem exists_run (h : Runs R as runs) {a : α} (ha : a ∈ as) : ∃ run ∈ runs, a ∈ run :=
  List.mem_flatten.mp (h.flatten.symm ▸ ha)

/-- What holds along the list holds along each run and from each run to the next. -/
theorem isChain_iff {S : α → α → Prop} (h : Runs R as runs) :
    as.IsChain S ↔ (∀ run ∈ runs, run.IsChain S) ∧
      runs.IsChain fun run next => ∀ a ∈ run.getLast?, ∀ b ∈ next.head?, S a b := by
  rw [← h.flatten, List.isChain_flatten h.nil_notMem]

/-- What holds of neighbours that are not related is what holds from each run to the next. -/
theorem isChain_or_iff {S : α → α → Prop} (h : Runs R as runs) :
    as.IsChain (fun a b => R a b ∨ S a b) ↔
      runs.IsChain fun run next => ∀ a ∈ run.getLast?, ∀ b ∈ next.head?, S a b := by
  have hwithin : ∀ run ∈ runs, run.IsChain fun a b => R a b ∨ S a b :=
    fun run hrun => (h.within run hrun).imp fun _ _ => Or.inl
  have hbetween := forall_neighbours_iff_isChain.mpr h.between
  rw [h.isChain_iff, and_iff_right hwithin, ← forall_neighbours_iff_isChain,
    ← forall_neighbours_iff_isChain]
  refine forall₂_congr fun p hp => forall₂_congr fun a ha => forall₂_congr fun b hb => ?_
  exact or_iff_right (hbetween p hp a ha b hb)

/-- Neighbours that are related are together. -/
theorem exists_run_of_neighbours (h : Runs R as runs) {a b : α} (hab : (a, b) ∈ neighbours as)
    (hR : R a b) : ∃ run ∈ runs, a ∈ run ∧ b ∈ run := by
  have hchain : as.IsChain fun a b => R a b → ∃ run ∈ runs, a ∈ run ∧ b ∈ run := by
    refine h.isChain_iff.mpr ⟨fun run hrun => ?_, h.between.imp fun run next hne a ha b hb hR => ?_⟩
    · exact forall_neighbours_iff_isChain.mp fun p hp _ =>
        ⟨run, hrun, mem_of_mem_neighbours hp⟩
    · exact absurd hR (hne a ha b hb)
  exact forall_neighbours_iff_isChain.mpr hchain (a, b) hab hR

/-- What occurs once is in one run. -/
theorem eq_of_mem (h : Runs R as runs) (hnodup : as.Nodup) {run run' : List α} (hrun : run ∈ runs)
    (hrun' : run' ∈ runs) {a : α} (ha : a ∈ run) (ha' : a ∈ run') : run = run' := by
  rw [← h.flatten, List.nodup_flatten] at hnodup
  have : Std.Symm (List.Disjoint (α := α)) := ⟨fun _ _ h => List.disjoint_symm h⟩
  by_contra hne
  exact hnodup.2.forall hrun hrun' hne ha ha'

/-- What holds of each element and all later ones holds from each run to all later ones. -/
theorem pairwise {S : α → α → Prop} (h : Runs R as runs) (has : as.Pairwise S) :
    runs.Pairwise fun run later => ∀ a ∈ run, ∀ b ∈ later, S a b := by
  rw [← h.flatten, List.pairwise_flatten] at has
  exact has.2

theorem map {f : α → β} {S : β → β → Prop} (h : Runs R as runs)
    (hRS : ∀ a ∈ as, ∀ b ∈ as, R a b ↔ S (f a) (f b)) :
    Runs S (as.map f) (runs.map (List.map f)) where
  flatten := by rw [← List.map_flatten, h.flatten]
  nonempty := List.forall_mem_map.mpr fun run hrun => by simpa using h.nonempty run hrun
  within := by
    refine List.forall_mem_map.mpr fun run hrun => ?_
    rw [List.isChain_map]
    exact List.IsChain.imp_of_mem_imp (fun a b ha hb =>
      (hRS a (h.mem_of_mem hrun ha) b (h.mem_of_mem hrun hb)).mp) (h.within run hrun)
  between := by
    rw [List.isChain_map]
    refine List.IsChain.imp_of_mem_imp (fun run next hrun hnext hne => ?_) h.between
    intro a ha b hb hS
    rw [List.getLast?_map] at ha
    rw [List.head?_map] at hb
    obtain ⟨last, hlast, rfl⟩ := Option.map_eq_some_iff.mp ha
    obtain ⟨first, hfirst, rfl⟩ := Option.map_eq_some_iff.mp hb
    refine hne last hlast first hfirst ((hRS last ?_ first ?_).mpr hS)
    · exact h.mem_of_mem hrun (List.mem_of_getLast? hlast)
    · exact h.mem_of_mem hnext (List.mem_of_head? hfirst)

end Runs

end RemoteWrite
