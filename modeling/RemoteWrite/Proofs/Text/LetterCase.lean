import Mathlib.Data.List.Forall2
import RemoteWrite.Proofs.Text.Blank

/-!
# Letter case

The case of a letter is lost when a text is lowered, and nothing else is. Blanks are no letters, so a
text may be trimmed before or after that.
-/

namespace RemoteWrite.Text

variable {c d : Char} {cs cs' : List Char}

/-! ### Characters -/

theorem toNat_toLower (c : Char) :
    c.toLower.toNat = if 65 ≤ c.toNat ∧ c.toNat ≤ 90 then c.toNat + 32 else c.toNat := by
  have hrange : c.val ≥ 'A'.val ∧ c.val ≤ 'Z'.val ↔ 65 ≤ c.toNat ∧ c.toNat ≤ 90 := Iff.rfl
  unfold Char.toLower
  split
  · next h =>
    have hupper := hrange.mp h
    have hadd : (c.val + ('a'.val - 'A'.val)).toNat = (c.toNat + 32) % 4294967296 :=
      UInt32.toNat_add ..
    rw [if_pos hupper]
    exact hadd.trans (Nat.mod_eq_of_lt (by omega))
  · next h => rw [if_neg (mt hrange.mpr h)]

theorem toNat_toUpper (c : Char) :
    c.toUpper.toNat = if 97 ≤ c.toNat ∧ c.toNat ≤ 122 then c.toNat - 32 else c.toNat := by
  have hrange : 'a'.val ≤ c.val ∧ c.val ≤ 'z'.val ↔ 97 ≤ c.toNat ∧ c.toNat ≤ 122 := Iff.rfl
  unfold Char.toUpper
  split
  · next h =>
    have hlower := hrange.mp h
    -- 32 less, in words
    have hadd : (c.val + ('A'.val - 'a'.val)).toNat = (c.toNat + 4294967264) % 4294967296 :=
      UInt32.toNat_add ..
    rw [if_pos hlower]
    exact hadd.trans (by omega)
  · next h => rw [if_neg (mt hrange.mpr h)]

theorem toLower_toLower (c : Char) : c.toLower.toLower = c.toLower := by
  rw [← Char.toNat_inj, toNat_toLower, toNat_toLower]
  split_ifs <;> omega

theorem toLower_toUpper (c : Char) : c.toUpper.toLower = c.toLower := by
  rw [← Char.toNat_inj, toNat_toLower, toNat_toLower, toNat_toUpper]
  split_ifs <;> omega

/-- A lowered letter is never one of the characters before `'a'`. -/
theorem eq_of_toLower_eq (h : c.toLower = d) (hd : d < 'a') : c = d := by
  have hlt : d.toNat < 97 := hd
  rw [← Char.toNat_inj, toNat_toLower] at h
  rw [← Char.toNat_inj]
  split_ifs at h <;> omega

theorem isBlank_toLower (c : Char) : isBlank c.toLower = isBlank c := by
  by_cases h : 65 ≤ c.toNat ∧ c.toNat ≤ 90
  · have hvisible : ∀ d : Char, 65 ≤ d.toNat → d.toNat ≤ 122 → isBlank d = false :=
      fun d hlow hhigh =>
        isBlank_of_visible (show 33 ≤ d.toNat by omega) (show d.toNat ≤ 126 by omega)
    have hlower : c.toLower.toNat = c.toNat + 32 := by rw [toNat_toLower, if_pos h]
    rw [hvisible c (by omega) (by omega), hvisible c.toLower (by omega) (by omega)]
  · have hsame : c.toLower = c := by rw [← Char.toNat_inj, toNat_toLower, if_neg h]
    rw [hsame]

/-! ### Texts -/

theorem lower_trim (cs : List Char) : lower (trim cs) = trim (lower cs) := by
  have hdrop : ∀ cs : List Char,
      (cs.map Char.toLower).dropWhile isBlank = (cs.dropWhile isBlank).map Char.toLower := by
    intro cs
    rw [List.dropWhile_map, funext (f := isBlank ∘ Char.toLower) isBlank_toLower]
  simp only [trim, trimEnd, dropEnd, lower, hdrop, ← List.map_reverse]

/-- The same text, each letter in either case. -/
def Recased : List Char → List Char → Prop :=
  List.Forall₂ fun c c' => c' = c ∨ c' = c.toLower ∨ c' = c.toUpper

theorem Recased.lower_eq (h : Recased cs cs') : lower cs' = lower cs := by
  induction h with
  | nil => rfl
  | cons hc _ ih =>
    refine congrArg₂ List.cons ?_ ih
    rcases hc with rfl | rfl | rfl
    · rfl
    · exact toLower_toLower _
    · exact toLower_toUpper _

theorem Recased.mem_of_mem (h : Recased cs cs') (hd : d < 'a') (hlower : d.toLower = d)
    (hmem : d ∈ cs') : d ∈ cs := by
  have hmem' : d ∈ lower cs := by
    rw [← h.lower_eq, ← hlower]
    exact List.mem_map_of_mem hmem
  obtain ⟨c, hc, hcd⟩ := List.mem_map.mp hmem'
  exact eq_of_toLower_eq hcd hd ▸ hc

/-- The same text in other letter case, or with blanks around it. -/
inductive Respelled (cs : List Char) : List Char → Prop where
  | recased {cs' : List Char} (h : Recased cs cs') : Respelled cs cs'
  | padded {cs' : List Char} (h : Padded cs cs') : Respelled cs cs'

namespace Respelled

theorem sameIgnoringCase_trim_eq (h : Respelled cs cs') (name : List Char) :
    sameIgnoringCase (trim cs') name = sameIgnoringCase (trim cs) name := by
  have hlower : lower (trim cs') = lower (trim cs) := by
    cases h with
    | recased h => rw [lower_trim, h.lower_eq, lower_trim]
    | padded h => rw [h.trim_eq]
  rw [sameIgnoringCase, hlower, sameIgnoringCase]

/-- Neither blanks nor letters are put in. -/
theorem mem_of_mem (h : Respelled cs cs') (hd : d < 'a') (hlower : d.toLower = d)
    (hblank : isBlank d = false) (hmem : d ∈ cs') : d ∈ cs := by
  cases h with
  | recased h => exact h.mem_of_mem hd hlower hmem
  | padded h =>
    obtain ⟨before, after, rfl, hbefore, hafter⟩ := h
    rcases List.mem_append.mp hmem with hmem | hmem
    · rcases List.mem_append.mp hmem with hmem | hmem
      · exact absurd (hbefore d hmem) (by rw [hblank]; decide)
      · exact hmem
    · exact absurd (hafter d hmem) (by rw [hblank]; decide)

end Respelled

end RemoteWrite.Text
