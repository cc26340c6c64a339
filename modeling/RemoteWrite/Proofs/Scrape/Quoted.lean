import RemoteWrite.Scrape.Line

/-!
# Quoted texts

A text in which backslashes, quotes and newlines are escaped is read back up to the closing quote,
whatever follows it. It holds no newline, so a line may carry it.
-/

namespace RemoteWrite.Scrape

variable {c : Char} {cs text rest : List Char}

def escapeChar (c : Char) : List Char :=
  if c = '\n' then ['\\', 'n'] else if c = '\\' ∨ c = '"' then ['\\', c] else [c]

def escape (cs : List Char) : List Char := cs.flatMap escapeChar

theorem escape_cons (c : Char) (cs : List Char) : escape (c :: cs) = escapeChar c ++ escape cs :=
  List.flatMap_cons

/-! ### Reading on -/

theorem readQuotedRest_backslash (h : readQuotedRest cs = .ok (text, rest)) (c : Char) :
    readQuotedRest ('\\' :: c :: cs) = .ok (escaped c ++ text, rest) := by
  rw [readQuotedRest, h]

/-- A backslash has a character behind it or stands at the end. -/
theorem ne_backslash (hpair : ∀ (d : Char) (more : List Char), c = '\\' → cs = d :: more → False)
    (hlast : c = '\\' → cs = [] → False) : c ≠ '\\' := by
  intro hc
  cases cs with
  | nil => exact hlast hc rfl
  | cons d more => exact hpair d more hc rfl

theorem readQuotedRest_cons (hslash : c ≠ '\\') (hquote : c ≠ '"')
    (h : readQuotedRest cs = .ok (text, rest)) :
    readQuotedRest (c :: cs) = .ok (c :: text, rest) := by
  rw [readQuotedRest.eq_def]
  split
  · next heq => exact absurd (List.cons.inj heq).1 hquote
  · next heq => exact absurd (List.cons.inj heq).1 hslash
  · next heq => exact absurd (List.cons.inj heq).1 hslash
  · next heq =>
    obtain ⟨rfl, rfl⟩ := List.cons.inj heq
    rw [h]
  · next heq => cases heq

theorem readQuotedRest_escapeChar (h : readQuotedRest cs = .ok (text, rest)) (c : Char) :
    readQuotedRest (escapeChar c ++ cs) = .ok (c :: text, rest) := by
  unfold escapeChar
  split
  · next hc =>
    rw [hc]
    exact readQuotedRest_backslash h 'n'
  · split
    · next hc =>
      refine (readQuotedRest_backslash h c).trans ?_
      rcases hc with rfl | rfl
      · rfl
      · rfl
    · next hplain =>
      rw [not_or] at hplain
      exact readQuotedRest_cons hplain.1 hplain.2 h

theorem readQuotedRest_escape (cs rest : List Char) :
    readQuotedRest (escape cs ++ '"' :: rest) = .ok (cs, rest) := by
  induction cs with
  | nil => rfl
  | cons c cs ih => rw [escape_cons, List.append_assoc, readQuotedRest_escapeChar ih]

/-- The text as it is written, in quotes. -/
def quoted (cs : List Char) : List Char := '"' :: (escape cs ++ ['"'])

theorem readQuoted_append (cs rest : List Char) :
    readQuoted (quoted cs ++ rest) = .ok (cs, rest) := by
  rw [quoted, List.cons_append, List.append_assoc, List.singleton_append]
  exact readQuotedRest_escape cs rest

theorem newline_notMem_escape (cs : List Char) : '\n' ∉ escape cs := by
  rw [escape, List.mem_flatMap]
  rintro ⟨c, -, hc⟩
  unfold escapeChar at hc
  split at hc
  · revert hc; decide
  · next hnewline =>
    split at hc
    · rcases List.mem_cons.mp hc with hslash | hc
      · revert hslash; decide
      · exact hnewline (List.mem_singleton.mp hc).symm
    · exact hnewline (List.mem_singleton.mp hc).symm

theorem newline_notMem_quoted (cs : List Char) : '\n' ∉ quoted cs := by
  simp [quoted, newline_notMem_escape]

end RemoteWrite.Scrape
