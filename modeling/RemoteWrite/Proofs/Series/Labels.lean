import RemoteWrite.Proofs.Neighbours
import RemoteWrite.Proofs.Text.Bytes
import RemoteWrite.Series.Labels

/-!
# Order and repeats among label names

Names are judged by their neighbours: those of the label set for order, and those of the sorted
names for repeats. In a sorted list the occurrences of a name stand together, so each name that occurs
twice is found, wherever it stood (`Labels.mem_repeatedNames_iff`). Together that is strict order
over all positions (`Labels.pairwise_lt_iff`).
-/

namespace RemoteWrite.Labels

variable {l : Labels} {names : List String} {name : String}

theorem isAscending_iff {l : Labels} :
    l.isAscending = true ↔ l.names.Pairwise fun a b => Text.le a b = true :=
  all_neighbours_iff_pairwise Text.le_trans

theorem isStrictlyAscending_iff :
    l.isStrictlyAscending = true ↔ l.names.Pairwise fun a b => Text.lt a b = true :=
  all_neighbours_iff_pairwise Text.lt_trans

/-! ### Runs of equal names -/

theorem mem_dropRepeats : name ∈ dropRepeats names ↔ name ∈ names := by
  fun_induction dropRepeats names with
  | case1 a rest ih => simp [ih]
  | case2 a b rest hne ih => rw [List.mem_cons, ih, ← List.mem_cons]
  | case3 => rfl

/-- Between neighbours of a sorted list `≤` and `≠` are `<`. -/
theorem pairwise_lt_dropRepeats (h : names.Pairwise fun a b => Text.le a b = true) :
    (dropRepeats names).Pairwise fun a b => Text.lt a b = true := by
  fun_induction dropRepeats names with
  | case1 a rest ih => exact ih h.of_cons
  | case2 a b rest hne ih =>
    obtain ⟨ha, hrest⟩ := List.pairwise_cons.mp h
    refine List.pairwise_cons.mpr ⟨fun c hc => ?_, ih hrest⟩
    have hab := ha b List.mem_cons_self
    rcases List.mem_cons.mp (mem_dropRepeats.mp hc) with rfl | hc
    · exact Text.lt_iff_le_and_ne.mpr ⟨hab, hne⟩
    · have hbc := List.rel_of_pairwise_cons hrest hc
      refine Text.lt_iff_le_and_ne.mpr ⟨Text.le_trans a b c hab hbc, ?_⟩
      rintro rfl
      exact hne (Text.le_antisymm hab hbc)
  | case3 rest hshort =>
    rcases rest with _ | ⟨a, _ | ⟨b, rest⟩⟩
    · exact .nil
    · exact List.pairwise_singleton _ a
    · exact (hshort a b rest rfl).elim

/-! ### Names that occur twice -/

/-- What stands between two occurrences of a name in a sorted list is that name. -/
theorem mem_neighbours_self_iff (h : names.Pairwise fun a b => Text.le a b = true) :
    (name, name) ∈ neighbours names ↔ 2 ≤ names.count name := by
  induction names with
  | nil => simp [neighbours]
  | cons a names ih =>
    obtain ⟨ha, hnames⟩ := List.pairwise_cons.mp h
    cases names with
    | nil =>
      have hcount : [a].count name ≤ 1 := List.count_le_length
      refine iff_of_false (fun h => ?_) (by omega)
      cases h
    | cons b names =>
      rw [neighbours_cons_cons, List.mem_cons, ih hnames]
      by_cases hname : a = name
      · subst hname
        have hagain : 2 ≤ (a :: b :: names).count a ↔ a ∈ b :: names := by
          rw [List.count_cons_self, ← List.count_pos_iff]
          omega
        rw [hagain]
        constructor
        · rintro (heq | hcount)
          · cases heq
            exact List.mem_cons_self
          · exact List.count_pos_iff.mp (by omega)
        · intro hmem
          have hab := ha b List.mem_cons_self
          have hba : Text.le b a = true := by
            rcases List.mem_cons.mp hmem with rfl | hmem
            · exact hab
            · exact List.rel_of_pairwise_cons hnames hmem
          rw [← Text.le_antisymm hab hba]
          exact .inl rfl
      · rw [List.count_cons_of_ne hname]
        exact or_iff_right fun heq => hname (Prod.mk.inj heq).1.symm

theorem mem_repeatedNames_iff : name ∈ l.repeatedNames ↔ 2 ≤ l.names.count name := by
  rw [repeatedNames, mem_dropRepeats, ← (Text.perm_sort l.names).count_eq,
    ← mem_neighbours_self_iff (Text.pairwise_sort _)]
  simp

theorem pairwise_lt_repeatedNames (l : Labels) :
    l.repeatedNames.Pairwise fun a b => Text.lt a b = true := by
  refine pairwise_lt_dropRepeats (List.Pairwise.sublist ?_ (Text.pairwise_sort l.names))
  refine (List.filter_sublist.map _).trans ?_
  rw [map_fst_neighbours]
  exact List.dropLast_sublist _

theorem repeatedNames_eq_nil : l.repeatedNames = [] ↔ l.names.Nodup := by
  rw [List.eq_nil_iff_forall_not_mem, List.nodup_iff_count_le_one]
  refine forall_congr' fun name => ?_
  rw [mem_repeatedNames_iff]
  omega

theorem pairwise_lt_iff {l : Labels} :
    (l.names.Pairwise fun a b => Text.lt a b = true)
      ↔ l.isAscending = true ∧ l.repeatedNames = [] := by
  rw [isAscending_iff, repeatedNames_eq_nil, List.Nodup, ← List.pairwise_and_iff]
  simp only [Text.lt_iff_le_and_ne]

end RemoteWrite.Labels
