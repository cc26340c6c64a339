import Mathlib.Data.List.Chain
import RemoteWrite.Neighbours

/-!
# Order along a list

A relation that is transitive holds of every pair of elements in their order as soon as it holds of
the neighbours.
-/

namespace RemoteWrite

variable {α : Type} {as : List α}

theorem neighbours_cons_cons (a b : α) (as : List α) :
    neighbours (a :: b :: as) = (a, b) :: neighbours (b :: as) := rfl

/-- Every element but the last is the first of two neighbours. -/
theorem map_fst_neighbours : ∀ as : List α, (neighbours as).map (·.1) = as.dropLast
  | [] => rfl
  | [_] => rfl
  | a :: b :: as => by
    rw [neighbours_cons_cons, List.map_cons, map_fst_neighbours (b :: as), List.dropLast_cons_cons]

theorem mem_neighbours_iff {a b : α} :
    (a, b) ∈ neighbours as ↔ ∃ i, as[i]? = some a ∧ as[i + 1]? = some b := by
  rw [List.mem_iff_getElem?]
  simp only [neighbours, List.getElem?_zip_eq_some, List.getElem?_tail]

theorem mem_of_mem_neighbours {a b : α} (h : (a, b) ∈ neighbours as) : a ∈ as ∧ b ∈ as := by
  obtain ⟨i, ha, hb⟩ := mem_neighbours_iff.mp h
  exact ⟨List.mem_of_getElem? ha, List.mem_of_getElem? hb⟩

theorem forall_neighbours_iff_isChain {R : α → α → Prop} :
    (∀ p ∈ neighbours as, R p.1 p.2) ↔ as.IsChain R := by
  induction as with
  | nil => exact iff_of_true (fun _ h => nomatch h) .nil
  | cons a as ih =>
    cases as with
    | nil => exact iff_of_true (fun _ h => nomatch h) (.singleton a)
    | cons b as => rw [neighbours_cons_cons, List.forall_mem_cons, ih, List.isChain_cons_cons]

theorem forall_neighbours_iff_pairwise {R : α → α → Prop}
    (trans : ∀ a b c, R a b → R b c → R a c) :
    (∀ p ∈ neighbours as, R p.1 p.2) ↔ as.Pairwise R := by
  have : Trans R R R := ⟨trans _ _ _⟩
  exact forall_neighbours_iff_isChain.trans List.isChain_iff_pairwise

theorem all_neighbours_iff_pairwise {R : α → α → Bool}
    (trans : ∀ a b c, R a b = true → R b c = true → R a c = true) :
    ((neighbours as).all fun (a, b) => R a b) = true ↔ as.Pairwise fun a b => R a b = true := by
  rw [List.all_eq_true]
  exact forall_neighbours_iff_pairwise trans

end RemoteWrite
