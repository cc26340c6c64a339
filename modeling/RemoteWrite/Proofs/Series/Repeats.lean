import RemoteWrite.Proofs.Series.SymbolTable

/-!
# Texts that a table lists several times

Each text but the empty one that stands at several positions has one entry, with all of its
positions in ascending order, and the entries are in the order of their first positions
(`SymbolTable.repeatsJudged`). No position is that of two texts, so the entries have one order only:
it matters neither in which order groups come out of a hash table nor which sort puts them in order.
-/

namespace RemoteWrite.SymbolTable

variable {table : SymbolTable} {s t : String} {positions : List Nat}
  {groups found : List (String × List Nat)} {entries : List (String × Nat)}

/-! ### Several positions -/

/-- The groups that are told of. -/
def several (groups : List (String × List Nat)) : List (String × List Nat) :=
  groups.filter fun g => 1 < g.2.length

theorem mem_several_iff (h : groups.Perm table.positions) :
    (s, positions) ∈ several groups ↔
      s ≠ "" ∧ table.Repeated s ∧ positions = table.positionsOf s := by
  rw [several, List.mem_filter, h.mem_iff, mem_positions, decide_eq_true_eq]
  constructor
  · rintro ⟨⟨hs, rfl, -⟩, hlen⟩
    exact ⟨hs, one_lt_length_positionsOf.mp hlen, rfl⟩
  · rintro ⟨hs, hrepeated, rfl⟩
    have hlen := one_lt_length_positionsOf.mpr hrepeated
    exact ⟨⟨hs, rfl, List.ne_nil_of_length_pos (Nat.zero_lt_of_lt hlen)⟩, hlen⟩

/-- The first position of a group, which has one. -/
theorem getElem?_headD_of_mem_several (h : groups.Perm table.positions)
    (hmem : (s, positions) ∈ several groups) :
    positions.head? = some (positions.headD 0) ∧ table[positions.headD 0]? = some s := by
  have hlen : 1 < positions.length := of_decide_eq_true (List.mem_filter.mp hmem).2
  obtain ⟨-, -, hpos⟩ := (mem_several_iff h).mp hmem
  obtain ⟨i, rest, hi⟩ := List.exists_cons_of_length_pos (Nat.zero_lt_of_lt hlen)
  have hfirst : i ∈ table.positionsOf s := by
    rw [← hpos, hi]
    exact List.mem_cons_self
  rw [hi]
  exact ⟨rfl, mem_positionsOf.mp hfirst⟩

/-- Groups with the same first position are the same. -/
theorem eq_of_headD_eq (h : groups.Perm table.positions) {g g' : String × List Nat}
    (hg : g ∈ several groups) (hg' : g' ∈ several groups) (hfirst : g.2.headD 0 = g'.2.headD 0) :
    g = g' := by
  obtain ⟨s, positions⟩ := g
  obtain ⟨t, positions'⟩ := g'
  have hs := (getElem?_headD_of_mem_several h hg).2
  have ht := (getElem?_headD_of_mem_several h hg').2
  rw [hfirst, ht] at hs
  cases hs
  rw [((mem_several_iff h).mp hg).2.2, ((mem_several_iff h).mp hg').2.2]

/-! ### Order of the entries -/

theorem perm_repeatsOf (groups : List (String × List Nat)) :
    (repeatsOf groups).Perm (several groups) := List.mergeSort_perm _ _

theorem pairwise_repeatsOf (groups : List (String × List Nat)) :
    (repeatsOf groups).Pairwise fun a b => a.2.headD 0 ≤ b.2.headD 0 := by
  have hsorted : (repeatsOf groups).Pairwise
      fun a b => decide (a.2.headD 0 ≤ b.2.headD 0) = true := by
    refine List.pairwise_mergeSort (fun a b c hab hbc => ?_) (fun a b => ?_) _
    · exact decide_eq_true (Nat.le_trans (of_decide_eq_true hab) (of_decide_eq_true hbc))
    · simpa using Nat.le_total _ _
  exact hsorted.imp of_decide_eq_true

/-- Whatever sorts the groups, and in whatever order they come. -/
theorem eq_repeats_of_sorted (h : groups.Perm table.positions)
    (hfound : found.Perm (several groups))
    (hsorted : found.Pairwise fun a b => a.2.headD 0 ≤ b.2.headD 0) : found = table.repeats := by
  have hperm : found.Perm table.repeats :=
    hfound.trans ((h.filter _).trans (perm_repeatsOf table.positions).symm)
  refine hperm.eq_of_pairwise ?_ hsorted (pairwise_repeatsOf _)
  intro g g' hg hg' hle hle'
  exact eq_of_headD_eq h (hfound.mem_iff.mp hg)
    (hfound.mem_iff.mp (hperm.mem_iff.mpr hg')) (Nat.le_antisymm hle hle')

/-! ### Groups in a hash table -/

/-- The positions of each text that is not empty, found by the text. -/
def hashedOf (entries : List (String × Nat)) : Std.HashMap String (List Nat) :=
  entries.foldl
    (fun map (s, i) => if s = "" then map else map.insert s (map.getD s [] ++ [i])) ∅

theorem getElem?_hashedOf : (hashedOf entries)[t]? = (groupsOf entries).lookup t := by
  induction entries using List.reverseRecOn generalizing t with
  | nil => exact Std.HashMap.getElem?_empty
  | append_singleton entries e ih =>
    obtain ⟨s, i⟩ := e
    have hstep : hashedOf (entries ++ [(s, i)]) = if s = "" then hashedOf entries
        else (hashedOf entries).insert s ((hashedOf entries).getD s [] ++ [i]) := by
      rw [hashedOf, List.foldl_append]
      rfl
    rw [hstep, groupsOf_concat]
    split
    · exact ih
    · rw [lookup_addPosition, Std.HashMap.getElem?_insert, Std.HashMap.getD_eq_getD_getElem?, ih,
        ih]
      simp only [beq_iff_eq, @eq_comm _ s t]

theorem perm_toList_hashedOf (table : SymbolTable) :
    (hashedOf table.zipIdx).toList.Perm table.positions := by
  have hnodup : (hashedOf table.zipIdx).toList.Nodup :=
    (Std.HashMap.distinct_keys_toList (m := hashedOf table.zipIdx)).imp fun hab heq =>
      beq_eq_false_iff_ne.mp hab (congrArg Prod.fst heq)
  refine (List.perm_ext_iff_of_nodup hnodup nodup_keys_groupsOf.of_map).mpr ?_
  rintro ⟨s, positions⟩
  rw [Std.HashMap.mem_toList_iff_getElem?_eq_some, getElem?_hashedOf]
  exact (mem_iff_lookup_eq_some nodup_keys_groupsOf).symm

/-! ### Everything together -/

/-- Entries for exactly the texts that are repeated, by their first positions. -/
structure ListsRepeats (table : SymbolTable) (found : List (String × List Nat)) : Prop where
  /-- No text has two entries. -/
  nodup : (found.map (·.1)).Nodup
  mem_iff : ∀ s, s ∈ found.map (·.1) ↔ s ≠ "" ∧ table.Repeated s
  ascending : ∀ s positions, (s, positions) ∈ found → positions.Pairwise (· < ·)
  mem_positions : ∀ s positions, (s, positions) ∈ found → ∀ i, i ∈ positions ↔ table[i]? = some s
  byFirst : found.Pairwise fun a b => ∃ i j, a.2.head? = some i ∧ b.2.head? = some j ∧ i < j

theorem listsRepeats (table : SymbolTable) : table.ListsRepeats table.repeats := by
  have hmem : ∀ s positions, (s, positions) ∈ table.repeats ↔
      s ≠ "" ∧ table.Repeated s ∧ positions = table.positionsOf s := fun s positions =>
    (perm_repeatsOf _).mem_iff.trans (mem_several_iff (.refl _))
  have hnodup : (table.repeats.map (·.1)).Nodup :=
    ((perm_repeatsOf _).map _).nodup_iff.mpr
      (nodup_keys_groupsOf.sublist (List.filter_sublist.map _))
  refine ⟨hnodup, ?_, ?_, ?_, ?byFirst⟩
  · intro s
    simp only [List.mem_map, Prod.exists, exists_and_right, exists_eq_right, hmem]
    exact ⟨fun ⟨_, hs, hrepeated, _⟩ => ⟨hs, hrepeated⟩, fun h => ⟨_, h.1, h.2, rfl⟩⟩
  · intro s positions h
    rw [((hmem s positions).mp h).2.2]
    exact table.pairwise_positionsOf s
  · intro s positions h i
    rw [((hmem s positions).mp h).2.2, mem_positionsOf]
  case byFirst =>
    have hne : table.repeats.Pairwise (· ≠ ·) := hnodup.of_map
    refine List.Pairwise.imp_of_mem ?_ ((pairwise_repeatsOf _).and hne)
    rintro ⟨s, positions⟩ ⟨t, positions'⟩ hs ht ⟨hle, hne⟩
    have hs := (perm_repeatsOf _).mem_iff.mp hs
    have ht := (perm_repeatsOf _).mem_iff.mp ht
    refine ⟨_, _, (getElem?_headD_of_mem_several (.refl _) hs).1,
      (getElem?_headD_of_mem_several (.refl _) ht).1, Nat.lt_of_le_of_ne hle fun heq => ?_⟩
    exact hne (eq_of_headD_eq (.refl _) hs ht heq)

/-- What is found of the texts that a table repeats, in whatever order groups are looked at. -/
structure RepeatsJudged (table : SymbolTable) : Prop where
  lists : table.ListsRepeats table.repeats
  /-- A hash table gives its groups in any order. -/
  reordered : ∀ groups, groups.Perm table.positions → repeatsOf groups = table.repeats
  hashed : repeatsOf (hashedOf table.zipIdx).toList = table.repeats
  /-- The sort need not keep the order of groups that it takes for equal. -/
  sorted : ∀ groups found, groups.Perm table.positions → found.Perm (several groups) →
    (found.Pairwise fun a b => a.2.headD 0 ≤ b.2.headD 0) → found = table.repeats
  eq_nil_iff : table.repeats = [] ↔ table.Distinct

theorem repeatsJudged (table : SymbolTable) : table.RepeatsJudged where
  lists := table.listsRepeats
  reordered groups h := eq_repeats_of_sorted h (perm_repeatsOf groups) (pairwise_repeatsOf groups)
  hashed := eq_repeats_of_sorted (perm_toList_hashedOf table) (perm_repeatsOf _)
    (pairwise_repeatsOf _)
  sorted _ _ := eq_repeats_of_sorted
  eq_nil_iff := repeats_eq_nil

example : repeats ["", "a", "b", "a", "", "b", "a"] = [("a", [1, 3, 6]), ("b", [2, 5])] := by cbv

end RemoteWrite.SymbolTable
