import RemoteWrite.Proofs.Series.Labels
import RemoteWrite.Rules.Series

/-!
# What the rules say of label names

One check asks whether names go back and another whether a name is there twice, and a label set
tells by itself whether its names ascend strictly. These are three computations, and they come to
one end: names pass both checks exactly if they ascend strictly, that is, if of any two the earlier
one is less (`Rules.namesJudged`).
-/

namespace RemoteWrite

theorem Labels.isStrictlyAscending_iff_getElem? {l : Labels} :
    l.isStrictlyAscending = true ↔ ∀ (i j : Nat) (a b : String), i < j →
      l.names[i]? = some a → l.names[j]? = some b → Text.bytes a < Text.bytes b := by
  rw [isStrictlyAscending_iff, List.pairwise_iff_getElem]
  simp only [Text.lt_iff]
  constructor
  · intro h i j a b hij ha hb
    obtain ⟨hi, rfl⟩ := List.getElem?_eq_some_iff.mp ha
    obtain ⟨hj, rfl⟩ := List.getElem?_eq_some_iff.mp hb
    exact h i j hi hj hij
  · intro h i j hi hj hij
    exact h i j _ _ hij (List.getElem?_eq_getElem hi) (List.getElem?_eq_getElem hj)

namespace Rules

variable {findings : List Finding} {check : String} {passed other : Bool}

/-- The check is made once, and this is how it ends. -/
def Finds (findings : List Finding) (check : String) (passed : Bool) : Prop :=
  ∃ f, findings.filter (·.check = check) = [f] ∧ f.passed = passed

theorem Finds.passed_eq (h : Finds findings check passed) (h' : Finds findings check other) :
    passed = other := by
  obtain ⟨f, hf, rfl⟩ := h
  obtain ⟨f', hf', rfl⟩ := h'
  rw [hf, List.singleton_inj] at hf'
  rw [hf']

theorem finds_labelsSorted (l : Labels) (place : Location) :
    Finds (labels l place) "labels-sorted" l.isAscending := ⟨_, rfl, rfl⟩

theorem finds_labelsUnique (l : Labels) (place : Location) :
    Finds (labels l place) "labels-unique" l.repeatedNames.isEmpty := ⟨_, rfl, rfl⟩

/-- How the names of a label set are judged. -/
structure NamesJudged (l : Labels) (place : Location) : Prop where
  /-- No name is listed twice, and names are in byte order. -/
  ascending : l.repeatedNames.Pairwise fun a b => Text.bytes a < Text.bytes b
  mem_iff : ∀ name, name ∈ l.repeatedNames ↔ 2 ≤ l.names.count name
  checked : ∃ sorted unique, Finds (labels l place) "labels-sorted" sorted ∧
    Finds (labels l place) "labels-unique" unique
  passes_iff : l.isStrictlyAscending = true ↔ Finds (labels l place) "labels-sorted" true ∧
    Finds (labels l place) "labels-unique" true
  ordered_iff : l.isStrictlyAscending = true ↔ ∀ (i j : Nat) (a b : String), i < j →
    l.names[i]? = some a → l.names[j]? = some b → Text.bytes a < Text.bytes b

theorem namesJudged (l : Labels) (place : Location) : NamesJudged l place where
  ascending := l.pairwise_lt_repeatedNames.imp Text.lt_iff.mp
  mem_iff _ := Labels.mem_repeatedNames_iff
  checked := ⟨_, _, finds_labelsSorted l place, finds_labelsUnique l place⟩
  passes_iff := by
    have hsorted := finds_labelsSorted l place
    have hunique := finds_labelsUnique l place
    rw [Labels.isStrictlyAscending_iff, Labels.pairwise_lt_iff, ← List.isEmpty_iff]
    constructor
    · rintro ⟨hascending, hnil⟩
      rw [hascending] at hsorted
      rw [hnil] at hunique
      exact ⟨hsorted, hunique⟩
    · rintro ⟨hascending, hnil⟩
      exact ⟨hsorted.passed_eq hascending, hunique.passed_eq hnil⟩
  ordered_iff := Labels.isStrictlyAscending_iff_getElem?

/-- The repeats stand apart, and one name is there three times. -/
example : (Labels.mk [("b", ""), ("a", ""), ("b", ""), ("a", ""), ("b", "")]).repeatedNames
    = ["a", "b"] := by cbv

end Rules

end RemoteWrite
