import RemoteWrite.Proofs.Text.Blank
import RemoteWrite.Scrape.Line

/-!
# Gaps and tokens

The classes of characters that delimit the parts of a line: names and values hold no blanks, gaps
are blanks of a line, and so each part is read up to where the next one begins.
-/

namespace RemoteWrite.Scrape

open Text (Stops)

variable {c : Char} {cs rest : List Char}

/-! ### Characters -/

theorem not_isBlank_of_isNameChar (h : isNameChar c = true) : Text.isBlank c = false := by
  have hrange : ∀ low high : UInt32, '!'.val ≤ low → high ≤ '~'.val →
      low ≤ c.val ∧ c.val ≤ high → Text.isBlank c = false := fun _ _ hlow hhigh hc =>
    Text.isBlank_of_visible (UInt32.le_trans hlow hc.1) (UInt32.le_trans hc.2 hhigh)
  have hcases : ((((c.isUpper || c.isLower) || c.isDigit) || c == '_') || c == ':') = true := h
  simp only [Bool.or_eq_true, beq_iff_eq] at hcases
  rcases hcases with (((hupper | hlower) | hdigit) | rfl) | rfl
  · exact hrange 'A'.val 'Z'.val (by decide) (by decide) (of_decide_eq_true hupper)
  · obtain ⟨hlow, hhigh⟩ := Bool.and_eq_true_iff.mp hlower
    exact hrange 'a'.val 'z'.val (by decide) (by decide)
      ⟨of_decide_eq_true hlow, of_decide_eq_true hhigh⟩
  · obtain ⟨hlow, hhigh⟩ := Bool.and_eq_true_iff.mp hdigit
    exact hrange '0'.val '9'.val (by decide) (by decide)
      ⟨of_decide_eq_true hlow, of_decide_eq_true hhigh⟩
  · decide
  · decide

theorem isNameChar_of_isLabelNameChar (h : isLabelNameChar c = true) : isNameChar c = true := by
  rw [isNameChar]
  rw [isLabelNameChar] at h
  rw [h, Bool.true_or]

theorem isBlank_of_isGap (h : isGap c = true) : Text.isBlank c = true := by
  rw [isGap, Bool.or_eq_true, beq_iff_eq, beq_iff_eq] at h
  rcases h with rfl | rfl
  · decide
  · decide

theorem not_isGap_of_not_isBlank (h : Text.isBlank c = false) : isGap c = false :=
  Bool.eq_false_iff.mpr fun hgap => by rw [isBlank_of_isGap hgap] at h; cases h

theorem not_isNameChar_of_isGap (h : isGap c = true) : isNameChar c = false :=
  Bool.eq_false_iff.mpr fun hname => by
    have := not_isBlank_of_isNameChar hname
    rw [isBlank_of_isGap h] at this
    cases this

theorem not_isGap_of_isLabelNameChar (h : isLabelNameChar c = true) : isGap c = false :=
  not_isGap_of_not_isBlank (not_isBlank_of_isNameChar (isNameChar_of_isLabelNameChar h))

theorem not_isLabelNameChar_of_isGap (h : isGap c = true) : isLabelNameChar c = false :=
  Bool.eq_false_iff.mpr fun hname => by
    rw [not_isGap_of_isLabelNameChar hname] at h
    cases h

theorem newline_notMem_of_not_isBlank (h : ∀ c ∈ cs, Text.isBlank c = false) :
    '\n' ∉ cs :=
  fun hc => absurd (h _ hc) (by decide)

/-- A token ends where a blank comes or the line is over. -/
theorem token_append (h : ∀ c ∈ cs, Text.isBlank c = false)
    (hrest : Stops (fun c => !Text.isBlank c) rest) : token (cs ++ rest) = cs :=
  hrest.takeWhile_append fun c hc => by rw [h c hc]; rfl

theorem endsToken_of_isGap (c : Char) (h : isGap c = true) : (!Text.isBlank c) = false := by
  rw [isBlank_of_isGap h]
  rfl

/-! ### Gaps -/

/-- Spaces and tabs. -/
structure Gap where
  chars : List Char
  isGap : ∀ c ∈ chars, Scrape.isGap c = true

namespace Gap

variable {p : Char → Bool}

theorem stops (g : Gap) (hp : ∀ c, Scrape.isGap c = true → p c = false) (h : Stops p rest) :
    Stops p (g.chars ++ rest) :=
  (Stops.of_forall fun c hc => hp c (g.isGap c hc)).append h

theorem stops_of_ne_nil (g : Gap) (hp : ∀ c, Scrape.isGap c = true → p c = false)
    (hne : g.chars ≠ []) : Stops p (g.chars ++ rest) :=
  (Stops.of_forall fun c hc => hp c (g.isGap c hc)).append_left hne

theorem skipGap_append (g : Gap) (h : Stops Scrape.isGap rest) : skipGap (g.chars ++ rest) = rest :=
  h.dropWhile_append g.isGap

theorem newline_notMem (g : Gap) : '\n' ∉ g.chars :=
  fun h => absurd (g.isGap _ h) (by decide)

end Gap

end RemoteWrite.Scrape
