import Mathlib.Data.List.Forall2
import RemoteWrite.Proofs.Scrape.Terminate

/-!
# Samples by their lines

`Scrape.read_samples`: what is read of a text holds one sample for each sample line, in the order of
the lines. A sample line is a line before the end marker that is neither empty nor a comment.
-/

namespace RemoteWrite.Scrape

variable {format : ScrapeFormat} {x y : Scrape} {n : Nat} {line : List Char} {item : Line}

/-- Of some lines those of samples, without blanks around them. -/
def sampleLinesOf (ls : List (List Char)) : List (List Char) :=
  ((ls.map Text.trim).takeWhile (· ≠ endMarker)).filter
    fun line => line ≠ [] ∧ line.head? ≠ some '#'

/-- The sample lines of a text. -/
def sampleLines (text : String) : List (List Char) := sampleLinesOf (lines text.toList)

theorem sampleLinesOf_cons (ls : List (List Char)) :
    sampleLinesOf (line :: ls) =
      if Text.trim line = endMarker then []
      else if Text.trim line ≠ [] ∧ (Text.trim line).head? ≠ some '#' then
        Text.trim line :: sampleLinesOf ls
      else sampleLinesOf ls := by
  unfold sampleLinesOf
  rw [List.map_cons, List.takeWhile_cons]
  by_cases hm : Text.trim line = endMarker
  · simp [hm]
  · simp only [hm, not_false_eq_true, decide_true, if_true, if_false, ne_eq, List.filter_cons,
      decide_eq_true_eq]

/-! ### What a line adds -/

/-- A comment that is read is no sample. -/
theorem samples_add_of_readComment {cs : List Char} (h : readComment cs = .ok item) (x : Scrape) :
    (x.add item).samples = x.samples := by
  unfold readComment at h
  simp only [bind, Except.bind, pure, Except.pure] at h
  split at h
  · cases h; rfl
  · split at h
    · cases h
    · split at h
      · cases h; rfl
      · split at h
        · cases h; rfl
        · cases h; rfl

/-- A line that is no comment is read as a sample. -/
theorem readLine_of_ne_hash (h : line.head? ≠ some '#') :
    readLine format line = (readSample format line).map .sample := by
  unfold readLine
  split
  · exact absurd rfl h
  · rfl

theorem readLine_of_hash (h : line.head? = some '#') :
    ∃ cs, readLine format line = readComment cs := by
  obtain ⟨cs, rfl⟩ := List.head?_eq_some_iff.mp h
  exact ⟨cs, rfl⟩

theorem readLines_samples {ls : List (List Char)} (h : readLines format n ls x = .ok y) :
    ∃ samples, y.samples = x.samples ++ samples ∧
      List.Forall₂ (fun line s => readSample format line = .ok s) (sampleLinesOf ls) samples := by
  induction ls generalizing n x with
  | nil => cases h; exact ⟨[], (List.append_nil _).symm, .nil⟩
  | cons line ls ih =>
    rw [readLines_cons] at h
    rw [sampleLinesOf_cons]
    by_cases hnil : Text.trim line = []
    · rw [hnil] at h ⊢
      rw [if_neg (by decide), if_neg (fun hne => hne.1 rfl)]
      exact ih h
    · rw [if_neg (by simpa using hnil)] at h
      split at h
      · next hmarker =>
        cases h
        rw [if_pos hmarker]
        exact ⟨[], (List.append_nil _).symm, .nil⟩
      · next hmarker =>
        rw [if_neg hmarker]
        by_cases hhash : (Text.trim line).head? = some '#'
        · rw [if_neg fun hne => hne.2 hhash]
          obtain ⟨cs, hcs⟩ : ∃ cs, readLine format (Text.trim line) = readComment cs :=
            readLine_of_hash hhash
          rw [hcs] at h
          cases hcomment : readComment cs with
          | error fault => rw [hcomment] at h; cases h
          | ok item =>
            rw [hcomment] at h
            obtain ⟨samples, hy, hsamples⟩ := ih h
            exact ⟨samples, by rw [hy, samples_add_of_readComment hcomment], hsamples⟩
        · rw [if_pos ⟨hnil, hhash⟩]
          rw [readLine_of_ne_hash hhash] at h
          cases hsample : readSample format (Text.trim line) with
          | error fault => rw [hsample] at h; cases h
          | ok s =>
            rw [hsample] at h
            obtain ⟨samples, hy, hsamples⟩ := ih h
            refine ⟨s :: samples, ?_, .cons hsample hsamples⟩
            rw [hy]
            exact List.append_assoc ..

theorem read_samples {text : String} (h : read format text = .ok x) :
    List.Forall₂ (fun line s => readSample format line = .ok s) (sampleLines text) x.samples := by
  obtain ⟨samples, hx, hsamples⟩ := readLines_samples h
  rw [hx]
  exact hsamples

/-! ### A text of one line -/

/-- One line that exposes something is one sample. -/
theorem read_eq_ok_iff_of_line {text : String} (htext : '\n' ∉ text.toList) (hx : x.samples ≠ []) :
    read format text = .ok x ↔
      (Text.trim text.toList).head? ≠ some '#' ∧
        ∃ s, readSample format (Text.trim text.toList) = .ok s ∧ x = ⟨[], [s]⟩ := by
  have hlines : lines text.toList = [text.toList] := List.splitOn_eq_singleton htext
  rw [read, hlines, readLines_cons]
  generalize Text.trim text.toList = line
  constructor
  · intro h
    split at h
    · cases h
      exact absurd rfl hx
    split at h
    · cases h
      exact absurd rfl hx
    split at h
    · cases h
    next item hitem =>
      cases h
      have hhash : line.head? ≠ some '#' := by
        intro hhash
        obtain ⟨cs, hcs⟩ : ∃ cs, readLine format line = readComment cs := readLine_of_hash hhash
        rw [hcs] at hitem
        exact hx (samples_add_of_readComment hitem _)
      rw [readLine_of_ne_hash hhash] at hitem
      cases hs : readSample format line with
      | error fault => rw [hs] at hitem; cases hitem
      | ok s =>
        rw [hs] at hitem
        cases hitem
        exact ⟨hhash, s, rfl, rfl⟩
  · rintro ⟨hhash, s, hs, rfl⟩
    have hne : line ≠ [] := by
      rintro rfl
      cases hs
    have hmarker : line ≠ endMarker := by
      rintro rfl
      exact hhash (by decide)
    rw [if_neg (by simpa using hne), if_neg hmarker, readLine_of_ne_hash hhash, hs]
    rfl

end RemoteWrite.Scrape
