import Mathlib
import RemoteWrite.Series.SymbolTable

/-!
# What a symbol table says

A reference list resolves to exactly the pairs that its references look up one by one
(`SymbolTable.resolve_eq_ok_iff`), and it resolves if it has even length and stays within the table.
The groups of positions list each text but the empty one with all of its positions
(`SymbolTable.mem_positions`).
-/

namespace RemoteWrite.SymbolTable

variable {table : SymbolTable} {refs : List UInt32} {pairs : LabelList} {s t : String}

/-! ### References -/

theorem lookup_eq_ok_iff {reference : UInt32} :
    table.lookup reference = .ok s ↔ table[reference.toNat]? = some s := by
  unfold lookup
  cases table[reference.toNat]? <;> simp

theorem lookupAt_eq_ok_iff {position : Nat} {reference : UInt32} :
    table.lookupAt position reference = .ok s ↔ table[reference.toNat]? = some s := by
  unfold lookupAt
  cases table[reference.toNat]? <;> simp

/-- The texts of label pairs in the order of a reference list. -/
def textsOf (pairs : LabelList) : List String := pairs.flatMap fun (name, value) => [name, value]

theorem length_textsOf (pairs : LabelList) : (textsOf pairs).length = 2 * pairs.length := by
  induction pairs with
  | nil => rfl
  | cons p pairs ih =>
    rw [textsOf, List.flatMap_cons, List.length_append, List.length_cons, ← textsOf, ih]
    exact (Nat.add_comm ..).trans (Nat.mul_succ ..).symm

theorem textsOf_cons (name value : String) (pairs : LabelList) :
    textsOf ((name, value) :: pairs) = name :: value :: textsOf pairs := rfl

theorem resolveFrom_eq_ok_iff {position : Nat} (heven : refs.length % 2 = 0) :
    resolveFrom table position refs = .ok pairs ↔
      refs.map (fun r => table[r.toNat]?) = (textsOf pairs).map some := by
  induction position, refs using resolveFrom.induct generalizing pairs with
  | case1 position name value refs ih =>
    simp only [resolveFrom, bind, Except.bind, List.map_cons]
    have heven : refs.length % 2 = 0 := by simp only [List.length_cons] at heven; omega
    constructor
    · intro h
      cases hn : table.lookupAt position name with
      | error e => rw [hn] at h; cases h
      | ok n =>
        cases hv : table.lookupAt (position + 1) value with
        | error e => rw [hn, hv] at h; cases h
        | ok v =>
          cases hr : resolveFrom table (position + 2) refs with
          | error e => rw [hn, hv, hr] at h; cases h
          | ok rest =>
            rw [hn, hv, hr] at h
            cases h
            rw [lookupAt_eq_ok_iff.mp hn, lookupAt_eq_ok_iff.mp hv, (ih heven).mp hr]
            rfl
    · intro h
      cases pairs with
      | nil => cases h
      | cons p pairs =>
        obtain ⟨n, v⟩ := p
        rw [textsOf_cons, List.map_cons, List.map_cons] at h
        injection h with hn h
        injection h with hv hr
        rw [lookupAt_eq_ok_iff.mpr hn, lookupAt_eq_ok_iff.mpr hv, (ih heven).mpr hr]
        rfl
  | case2 refs position hshort =>
    have hnil : refs = [] := by
      rcases refs with _ | ⟨a, _ | ⟨b, rest⟩⟩
      · rfl
      · cases heven
      · exact (hshort a b rest rfl).elim
    subst hnil
    rw [resolveFrom]
    · cases pairs with
      | nil => exact iff_of_true rfl rfl
      | cons p pairs => exact iff_of_false (fun h => nomatch h) (fun h => nomatch h)
    · exact fun a b rest h => nomatch h

/-- A list that resolves does so text by text. -/
theorem resolve_eq_ok_iff :
    table.resolve refs = .ok pairs ↔
      refs.map (fun r => table[r.toNat]?) = (textsOf pairs).map some := by
  unfold resolve
  split
  · next heven => exact resolveFrom_eq_ok_iff heven
  · next hodd =>
    refine iff_of_false (fun h => nomatch h) fun h => hodd ?_
    have hlen := congrArg List.length h
    rw [List.length_map, List.length_map, length_textsOf] at hlen
    omega

/-- The list has even length and stays within the table. -/
def Holds (table : SymbolTable) (refs : List UInt32) : Prop :=
  refs.length % 2 = 0 ∧ ∀ r ∈ refs, r.toNat < table.length

theorem exists_textsOf : ∀ {texts : List String}, texts.length % 2 = 0 →
    ∃ pairs, textsOf pairs = texts
  | [], _ => ⟨[], rfl⟩
  | name :: value :: texts, heven => by
    have heven : texts.length % 2 = 0 := by simp only [List.length_cons] at heven; omega
    obtain ⟨pairs, hpairs⟩ := exists_textsOf heven
    exact ⟨(name, value) :: pairs, by rw [textsOf_cons, hpairs]⟩

theorem exists_resolve_iff : (∃ pairs, table.resolve refs = .ok pairs) ↔ table.Holds refs := by
  constructor
  · rintro ⟨pairs, h⟩
    rw [resolve_eq_ok_iff] at h
    refine ⟨?_, fun r hr => ?_⟩
    · have hlen := congrArg List.length h
      rw [List.length_map, List.length_map, length_textsOf] at hlen
      omega
    · have hmem := List.mem_map_of_mem (f := fun r : UInt32 => table[r.toNat]?) hr
      rw [h] at hmem
      obtain ⟨s, -, hs⟩ := List.mem_map.mp hmem
      exact (List.getElem?_eq_some_iff.mp hs.symm).1
  · rintro ⟨heven, hlt⟩
    have heven : (refs.map fun r => table[r.toNat]?.getD "").length % 2 = 0 := by
      rwa [List.length_map]
    obtain ⟨pairs, hpairs⟩ := exists_textsOf heven
    refine ⟨pairs, resolve_eq_ok_iff.mpr ?_⟩
    rw [hpairs, List.map_map]
    refine List.map_congr_left fun r hr => ?_
    simp only [Function.comp, List.getElem?_eq_getElem (hlt r hr), Option.getD_some]

/-! ### Positions -/

/-- The positions of a text among the entries of a table. -/
def positionsIn (entries : List (String × Nat)) (s : String) : List Nat :=
  (entries.filter (·.1 = s)).map (·.2)

/-- The positions at which the table lists a text, in ascending order. -/
def positionsOf (table : SymbolTable) (s : String) : List Nat := positionsIn table.zipIdx s

theorem mem_positionsOf {i : Nat} : i ∈ table.positionsOf s ↔ table[i]? = some s := by
  rw [positionsOf, positionsIn, List.mem_map]
  constructor
  · rintro ⟨⟨t, j⟩, h, rfl⟩
    obtain ⟨hmem, ht⟩ := List.mem_filter.mp h
    rw [← of_decide_eq_true ht]
    exact List.mem_zipIdx_iff_getElem?.mp hmem
  · intro h
    exact ⟨(s, i), List.mem_filter.mpr ⟨List.mem_zipIdx_iff_getElem?.mpr h, decide_eq_true rfl⟩, rfl⟩

theorem pairwise_positionsOf (table : SymbolTable) (s : String) :
    (table.positionsOf s).Pairwise (· < ·) := by
  have hsub : (table.positionsOf s).Sublist (table.zipIdx.map (·.2)) := List.filter_sublist.map _
  refine List.Pairwise.sublist hsub ?_
  rw [List.zipIdx_map_snd]
  exact List.pairwise_lt_range'

/-- The text stands at two positions at least. -/
def Repeated (table : SymbolTable) (s : String) : Prop :=
  ∃ i j : Nat, i < j ∧ table[i]? = some s ∧ table[j]? = some s

theorem one_lt_length_positionsOf : 1 < (table.positionsOf s).length ↔ table.Repeated s := by
  constructor
  · intro h
    obtain ⟨i, j, rest, hpos⟩ : ∃ i j rest, table.positionsOf s = i :: j :: rest := by
      rcases hp : table.positionsOf s with _ | ⟨i, _ | ⟨j, rest⟩⟩
      · simp [hp] at h
      · simp [hp] at h
      · exact ⟨i, j, rest, rfl⟩
    have hsorted := table.pairwise_positionsOf s
    rw [hpos] at hsorted
    refine ⟨i, j, List.rel_of_pairwise_cons hsorted List.mem_cons_self, ?_, ?_⟩
    · exact mem_positionsOf.mp (by simp [hpos])
    · exact mem_positionsOf.mp (by simp [hpos])
  · rintro ⟨i, j, hij, hi, hj⟩
    have hsub : [i, j] ⊆ table.positionsOf s := by simp [mem_positionsOf, hi, hj]
    have hnodup : [i, j].Nodup := by simp [Nat.ne_of_lt hij]
    exact (hnodup.subperm hsub).length_le

section
variable {groups : List (String × List Nat)} {entries : List (String × Nat)} {i : Nat}

theorem lookup_cons {positions : List Nat} :
    List.lookup t ((s, positions) :: groups)
      = if t = s then some positions else groups.lookup t := by
  rw [List.lookup_cons]
  by_cases h : t = s
  · rw [beq_iff_eq.mpr h, if_pos h]
  · rw [beq_false_of_ne h, if_neg h]

theorem lookup_addPosition :
    (addPosition s i groups).lookup t
      = if t = s then some ((groups.lookup s).getD [] ++ [i]) else groups.lookup t := by
  induction groups with
  | nil => rw [addPosition, lookup_cons]; rfl
  | cons g groups ih =>
    obtain ⟨u, positions⟩ := g
    rw [addPosition]
    split
    · next hsu =>
      subst hsu
      by_cases ht : t = s <;> simp [lookup_cons, ht]
    · next hsu =>
      rw [lookup_cons, ih, lookup_cons, lookup_cons, if_neg hsu]
      by_cases ht : t = s
      · rw [if_pos ht, if_neg (ht ▸ hsu), if_pos ht]
      · rw [if_neg ht, if_neg ht]

theorem keys_addPosition :
    (addPosition s i groups).map (·.1)
      = if s ∈ groups.map (·.1) then groups.map (·.1) else groups.map (·.1) ++ [s] := by
  induction groups with
  | nil => rfl
  | cons g groups ih =>
    obtain ⟨u, positions⟩ := g
    rw [addPosition]
    split
    · next hsu => simp [hsu]
    · next hsu =>
      simp only [List.map_cons, ih, List.mem_cons, hsu, false_or]
      split <;> rfl

/-- The groups of some entries of a table. -/
def groupsOf (entries : List (String × Nat)) : List (String × List Nat) :=
  entries.foldl (fun groups (s, i) => if s = "" then groups else addPosition s i groups) []

theorem groupsOf_concat :
    groupsOf (entries ++ [(s, i)])
      = if s = "" then groupsOf entries else addPosition s i (groupsOf entries) := by
  rw [groupsOf, List.foldl_append]
  rfl

theorem positionsIn_concat :
    positionsIn (entries ++ [(s, i)]) t
      = if t = s then positionsIn entries t ++ [i] else positionsIn entries t := by
  rw [positionsIn, List.filter_append, List.map_append]
  by_cases h : t = s
  · subst h; simp [positionsIn]
  · rw [if_neg h]; simp [positionsIn, Ne.symm h]

theorem lookup_groupsOf :
    (groupsOf entries).lookup t
      = if t = "" ∨ positionsIn entries t = [] then none else some (positionsIn entries t) := by
  induction entries using List.reverseRecOn with
  | nil => exact (if_pos (.inr rfl)).symm
  | append_singleton entries e ih =>
    obtain ⟨s, i⟩ := e
    rw [groupsOf_concat, positionsIn_concat]
    by_cases hs : s = ""
    · rw [if_pos hs, ih]
      by_cases ht : t = s
      · rw [if_pos (.inl (ht.trans hs)), if_pos (.inl (ht.trans hs))]
      · rw [if_neg ht]
    · rw [if_neg hs, lookup_addPosition]
      by_cases ht : t = s
      · subst ht
        rw [if_pos rfl, if_pos rfl, ih, if_neg (c := t = "" ∨ positionsIn entries t ++ [i] = [])
          (by simp [hs])]
        split
        · next h => rw [h.resolve_left hs]; rfl
        · rfl
      · rw [if_neg ht, if_neg ht, ih]

theorem nodup_keys_groupsOf : ((groupsOf entries).map (·.1)).Nodup := by
  induction entries using List.reverseRecOn with
  | nil => exact List.nodup_nil
  | append_singleton entries e ih =>
    obtain ⟨s, i⟩ := e
    rw [groupsOf_concat]
    split
    · exact ih
    · rw [keys_addPosition]
      split
      · exact ih
      · next h =>
        rw [← List.concat_eq_append]
        exact ih.concat h

theorem mem_iff_lookup_eq_some {positions : List Nat} (hnodup : (groups.map (·.1)).Nodup) :
    (s, positions) ∈ groups ↔ groups.lookup s = some positions := by
  rw [List.lookup_eq_some_iff]
  constructor
  · intro h
    obtain ⟨before, after, rfl⟩ := List.append_of_mem h
    refine ⟨before, after, rfl, fun g hg => bne_iff_ne.mpr fun hgs => ?_⟩
    rw [List.map_append, List.map_cons, List.nodup_append] at hnodup
    exact hnodup.2.2 _ (List.mem_map_of_mem hg) _ List.mem_cons_self hgs.symm
  · rintro ⟨before, after, rfl, -⟩
    exact List.mem_append_right _ List.mem_cons_self

end

theorem mem_positions {positions : List Nat} :
    (s, positions) ∈ table.positions
      ↔ s ≠ "" ∧ positions = table.positionsOf s ∧ positions ≠ [] := by
  show (s, positions) ∈ groupsOf table.zipIdx ↔ _
  rw [mem_iff_lookup_eq_some nodup_keys_groupsOf, lookup_groupsOf, ← positionsOf]
  split
  · next h =>
    refine iff_of_false (fun h' => nomatch h') ?_
    rintro ⟨hs, rfl, hne⟩
    exact h.elim hs hne
  · next h =>
    rw [not_or] at h
    rw [Option.some.injEq, eq_comm]
    exact ⟨fun heq => ⟨h.1, heq, heq ▸ h.2⟩, fun heq => heq.2.1⟩

/-- No text but the empty one stands at two positions. -/
def Distinct (table : SymbolTable) : Prop :=
  ∀ (i j : Nat) (s : String), table[i]? = some s → table[j]? = some s → s ≠ "" → i = j

theorem repeats_eq_nil : table.repeats = [] ↔ table.Distinct := by
  rw [repeats, repeatsOf, ← List.length_eq_zero_iff, List.length_mergeSort, List.length_eq_zero_iff,
    List.filter_eq_nil_iff]
  simp only [decide_eq_true_eq]
  constructor
  · intro h i j s hi hj hs
    by_contra hne
    have hrepeated : table.Repeated s := by
      rcases Nat.lt_or_gt_of_ne hne with hij | hji
      · exact ⟨i, j, hij, hi, hj⟩
      · exact ⟨j, i, hji, hj, hi⟩
    have hmem := mem_positions.mpr ⟨hs, rfl, List.ne_nil_of_mem (mem_positionsOf.mpr hi)⟩
    exact h _ hmem (one_lt_length_positionsOf.mpr hrepeated)
  · rintro h ⟨s, positions⟩ hmem hlen
    obtain ⟨hs, rfl, -⟩ := mem_positions.mp hmem
    obtain ⟨i, j, hij, hi, hj⟩ := one_lt_length_positionsOf.mp hlen
    exact Nat.ne_of_lt hij (h i j s hi hj hs)

end RemoteWrite.SymbolTable
