import Mathlib.Data.List.Forall2
import RemoteWrite.Neighbours

/-!
# Traversals that may fail

A list is mapped by a function that may fail. The whole succeeds exactly if it does element by
element. What is related element by element has the same images, and is a chain together.
-/

namespace RemoteWrite

variable {α β ε : Type} {f : α → Except ε β} {as : List α}

theorem exists_map_iff {g : α → β} {x : Except ε α} :
    (∃ b, x.map g = .ok b) ↔ ∃ a, x = .ok a := by
  constructor
  · rintro ⟨b, h⟩
    cases x with
    | error e => cases h
    | ok a => exact ⟨a, rfl⟩
  · rintro ⟨a, rfl⟩
    exact ⟨g a, rfl⟩

theorem exists_of_bind_eq_ok {x : Except ε α} {g : α → Except ε β} {b : β} (h : x >>= g = .ok b) :
    ∃ a, x = .ok a ∧ g a = .ok b := by
  cases x with
  | error e => cases h
  | ok a => exact ⟨a, rfl, h⟩

theorem bind_eq_ok_iff {x : Except ε α} {g : α → Except ε β} {b : β} :
    x >>= g = .ok b ↔ ∃ a, x = .ok a ∧ g a = .ok b := by
  constructor
  · exact exists_of_bind_eq_ok
  · rintro ⟨a, rfl, h⟩
    exact h

theorem mapM_eq_ok_iff {bs : List β} :
    as.mapM f = .ok bs ↔ List.Forall₂ (fun a b => f a = .ok b) as bs := by
  induction as generalizing bs with
  | nil =>
    rw [List.forall₂_nil_left_iff]
    exact ⟨fun h => by cases h; rfl, fun h => by rw [h]; rfl⟩
  | cons a as ih =>
    rw [List.mapM_cons, List.forall₂_cons_left_iff]
    cases ha : f a with
    | error e => exact iff_of_false (fun h => nomatch h) fun ⟨_, _, h, _⟩ => nomatch h
    | ok b =>
      simp only [← ih, Except.ok.injEq]
      cases has : as.mapM f with
      | error e => exact iff_of_false (fun h => nomatch h) fun ⟨_, _, _, h, _⟩ => nomatch h
      | ok rest =>
        constructor
        · intro h
          cases h
          exact ⟨b, rest, rfl, rfl, rfl⟩
        · rintro ⟨_, _, rfl, h, rfl⟩
          cases h
          rfl

theorem exists_mapM_iff : (∃ bs, as.mapM f = .ok bs) ↔ ∀ a ∈ as, ∃ b, f a = .ok b := by
  simp only [mapM_eq_ok_iff]
  induction as with
  | nil => exact iff_of_true ⟨[], .nil⟩ fun _ h => nomatch h
  | cons a as ih =>
    rw [List.forall_mem_cons, ← ih]
    constructor
    · rintro ⟨_, _ | ⟨h, t⟩⟩
      exact ⟨⟨_, h⟩, _, t⟩
    · rintro ⟨⟨b, h⟩, bs, t⟩
      exact ⟨b :: bs, .cons h t⟩

/-- Where the function gives something of every element, what it gives follows the elements. -/
theorem forall₂_filterMap {f : α → Option β} {R : α → β → Prop}
    (h : ∀ a ∈ as, ∃ b, f a = some b ∧ R a b) : List.Forall₂ R as (as.filterMap f) := by
  induction as with
  | nil => exact .nil
  | cons a as ih =>
    rw [List.forall_mem_cons] at h
    obtain ⟨b, hb, hR⟩ := h.1
    rw [List.filterMap_cons_some hb]
    exact .cons hR (ih h.2)

/-- Where related elements stand in related places, one list is a chain if the other is. -/
theorem isChain_iff_of_forall₂ {R : α → β → Prop} {S : α → α → Prop} {T : β → β → Prop}
    {bs : List β} (h : List.Forall₂ R as bs)
    (hST : ∀ a a' b b', R a b → R a' b' → (S a a' ↔ T b b')) : as.IsChain S ↔ bs.IsChain T := by
  induction h with
  | nil => exact iff_of_true .nil .nil
  | cons hab hrest ih =>
    cases hrest with
    | nil => exact iff_of_true (.singleton _) (.singleton _)
    | cons hab' hrest =>
      rw [List.isChain_cons_cons, List.isChain_cons_cons, hST _ _ _ _ hab hab', ih]

theorem forall₂_neighbours {α β : Type} {R : α → β → Prop} {as : List α} {bs : List β}
    (h : List.Forall₂ R as bs) :
    List.Forall₂ (fun p q => R p.1 q.1 ∧ R p.2 q.2) (neighbours as) (neighbours bs) := by
  induction h with
  | nil => exact .nil
  | cons hab hrest ih =>
    cases hrest with
    | nil => exact .nil
    | cons hab' hrest => exact .cons ⟨hab, hab'⟩ ih

theorem map_eq_map_of_forall₂ {γ : Type} {R : α → β → Prop} {f : α → γ} {g : β → γ} {bs : List β}
    (h : List.Forall₂ R as bs) (hfg : ∀ a b, R a b → f a = g b) : as.map f = bs.map g := by
  induction h with
  | nil => rfl
  | cons hab _ ih => rw [List.map_cons, List.map_cons, hfg _ _ hab, ih]

theorem exists_of_forall₂_of_mem {R : α → β → Prop} {bs : List β} (h : List.Forall₂ R as bs) {a : α}
    (ha : a ∈ as) : ∃ b ∈ bs, R a b := by
  induction h with
  | nil => cases ha
  | cons hab _ ih =>
    rcases List.mem_cons.mp ha with rfl | ha
    · exact ⟨_, List.mem_cons_self, hab⟩
    · obtain ⟨b, hb, hR⟩ := ih ha
      exact ⟨b, List.mem_cons_of_mem _ hb, hR⟩

theorem rel_getElem?_of_forall₂ {R : α → β → Prop} {bs : List β} (h : List.Forall₂ R as bs)
    (i : Nat) : Option.Rel R as[i]? bs[i]? := by
  induction h generalizing i with
  | nil => exact .none
  | cons hab _ ih =>
    cases i with
    | zero => exact .some hab
    | succ i => exact ih i

theorem forall₂_of_forall₂ {γ : Type} {R : α → γ → Prop} {S : β → γ → Prop} {T : α → β → Prop}
    {bs : List β} {cs : List γ} (ha : List.Forall₂ R as cs) (hb : List.Forall₂ S bs cs)
    (h : ∀ a b c, R a c → S b c → T a b) : List.Forall₂ T as bs := by
  induction ha generalizing bs with
  | nil =>
    cases hb
    exact .nil
  | cons hac _ ih =>
    cases hb with
    | cons hbc hbs => exact .cons (h _ _ _ hac hbc) (ih hbs)

end RemoteWrite
