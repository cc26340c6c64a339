import Mathlib
import RemoteWrite.Proofs.Scrape.Quoted

/-!
# Where a quoted text ends

A character is escaped exactly if an odd number of backslashes stands before it. So a text has a
state at each of its positions, open or closed, and the state at a position is told by the run of
backslashes before it alone (`Scrape.isOpen_concat`). What is read in quotes is the text up to the
first quote at a closed position, and it is what unescaping makes of that text; without such a quote
nothing is read (`Scrape.readQuoted_judges`).
-/

namespace RemoteWrite.Scrape

variable {c : Char} {cs body text rest : List Char}

/-! ### Runs of backslashes -/

/-- An odd number of backslashes ends the text, so that what comes next is escaped. -/
def IsOpen (cs : List Char) : Prop := (cs.reverse.takeWhile (· = '\\')).length % 2 = 1

theorem not_isOpen_nil : ¬ IsOpen [] := Nat.zero_ne_one

theorem isOpen_concat : IsOpen (cs ++ [c]) ↔ c = '\\' ∧ ¬ IsOpen cs := by
  unfold IsOpen
  rw [List.reverse_append, List.reverse_singleton, List.singleton_append]
  by_cases hc : c = '\\'
  · rw [List.takeWhile_cons_of_pos (by simpa using hc), List.length_cons, and_iff_right hc]
    omega
  · rw [List.takeWhile_cons_of_neg (by simpa using hc)]
    exact iff_of_false Nat.zero_ne_one fun h => hc h.1

/-- What comes before a closed position does not matter. -/
theorem isOpen_append (h : ¬ IsOpen cs) (rest : List Char) : IsOpen (cs ++ rest) ↔ IsOpen rest := by
  induction rest using List.reverseRecOn with
  | nil => rw [List.append_nil]; exact iff_of_false h not_isOpen_nil
  | append_singleton rest c ih => rw [← List.append_assoc, isOpen_concat, isOpen_concat, ih]

theorem isOpen_singleton : IsOpen [c] ↔ c = '\\' := by
  rw [← List.nil_append [c], isOpen_concat, and_iff_left not_isOpen_nil]

/-- A backslash and the character behind it, which may be a backslash too, leave it closed. -/
theorem not_isOpen_pair (c : Char) : ¬ IsOpen ['\\', c] := by
  have hsplit : ['\\', c] = ['\\'] ++ [c] := rfl
  rw [hsplit, isOpen_concat, isOpen_singleton]
  exact fun h => h.2 rfl

/-! ### Quotes -/

/-- Every quote is escaped. -/
def QuotesEscaped (cs : List Char) : Prop :=
  ∀ before after, cs = before ++ '"' :: after → IsOpen before

theorem quotesEscaped_nil : QuotesEscaped [] := by
  intro before after h
  simp at h

theorem quotesEscaped_append (h : ¬ IsOpen cs) :
    QuotesEscaped (cs ++ rest) ↔ QuotesEscaped cs ∧ QuotesEscaped rest := by
  constructor
  · intro hall
    refine ⟨fun before after heq => ?_, fun before after heq => ?_⟩
    · exact hall before (after ++ rest) (by rw [heq, List.append_assoc, List.cons_append])
    · rw [← isOpen_append h]
      exact hall (cs ++ before) after (by rw [heq, List.append_assoc])
  · rintro ⟨hcs, hrest⟩ before after heq
    rcases List.append_eq_append_iff.mp heq with ⟨more, rfl, hmore⟩ | ⟨more, hmore, hafter⟩
    · rw [isOpen_append h]
      exact hrest more after hmore
    · cases more with
      | nil => exact absurd (hrest [] after hafter.symm) not_isOpen_nil
      | cons d more =>
        obtain ⟨rfl, -⟩ := List.cons.inj hafter
        exact hcs before more hmore

theorem quotesEscaped_pair (c : Char) : QuotesEscaped ['\\', c] := by
  intro before after h
  rcases before with _ | ⟨a, _ | ⟨b, before⟩⟩
  · simp at h
  · obtain ⟨rfl, -⟩ := List.cons.inj h
    exact isOpen_singleton.mpr rfl
  · simp at h

theorem quotesEscaped_singleton : QuotesEscaped [c] ↔ c ≠ '"' := by
  constructor
  · rintro h rfl
    exact not_isOpen_nil (h [] [] rfl)
  · intro hc before after h
    rcases before with _ | ⟨a, before⟩
    · exact absurd (List.cons.inj h).1 hc
    · simp at h

theorem quotesEscaped_backslash : QuotesEscaped ('\\' :: c :: cs) ↔ QuotesEscaped cs :=
  (quotesEscaped_append (not_isOpen_pair c)).trans (and_iff_right (quotesEscaped_pair c))

theorem isOpen_backslash : IsOpen ('\\' :: c :: cs) ↔ IsOpen cs :=
  isOpen_append (not_isOpen_pair c) cs

theorem quotesEscaped_cons (h : c ≠ '\\') :
    QuotesEscaped (c :: cs) ↔ c ≠ '"' ∧ QuotesEscaped cs := by
  have hclosed : ¬ IsOpen [c] := mt isOpen_singleton.mp h
  exact (quotesEscaped_append hclosed).trans (and_congr_left' quotesEscaped_singleton)

theorem isOpen_cons (h : c ≠ '\\') : IsOpen (c :: cs) ↔ IsOpen cs := by
  have hclosed : ¬ IsOpen [c] := mt isOpen_singleton.mp h
  exact isOpen_append hclosed cs

/-! ### Unescaping -/

theorem unescape_backslash (c : Char) (cs : List Char) :
    unescape ('\\' :: c :: cs) = escaped c ++ unescape cs := rfl

theorem unescape_cons (h : c ≠ '\\') (cs : List Char) : unescape (c :: cs) = c :: unescape cs := by
  rw [unescape.eq_def]
  split
  · next heq => exact absurd (List.cons.inj heq).1 h
  · next heq =>
    obtain ⟨rfl, rfl⟩ := List.cons.inj heq
    rfl
  · next heq => cases heq

/-- The character as it is written. A quote may go without its backslash. -/
def spellChar (bare : Bool) (c : Char) : List Char :=
  if c = '"' ∧ bare = true then ['"'] else escapeChar c

/-- The text as it is written; `bare` are the positions at which a quote has no backslash. -/
def spell (bare : Nat → Bool) (cs : List Char) : List Char :=
  cs.zipIdx.flatMap fun p => spellChar (bare p.2) p.1

theorem unescape_spellChar (bare : Bool) (c : Char) (cs : List Char) :
    unescape (spellChar bare c ++ cs) = c :: unescape cs := by
  unfold spellChar escapeChar
  split
  · next h =>
    rw [h.1]
    exact unescape_cons (by decide) cs
  · split
    · next h =>
      rw [h]
      exact unescape_backslash 'n' cs
    · split
      · next h =>
        refine (unescape_backslash c cs).trans ?_
        rcases h with rfl | rfl
        · rfl
        · rfl
      · next h => exact unescape_cons (not_or.mp h).1 cs

theorem unescape_spell (bare : Nat → Bool) (cs : List Char) : unescape (spell bare cs) = cs := by
  have hfrom : ∀ n, unescape ((cs.zipIdx n).flatMap fun p => spellChar (bare p.2) p.1) = cs := by
    induction cs with
    | nil => exact fun _ => rfl
    | cons c cs ih =>
      intro n
      rw [List.zipIdx_cons, List.flatMap_cons, unescape_spellChar, ih]
  exact hfrom 0

/-! ### Reading up to the closing quote -/

theorem readQuotedRest_body (hquotes : QuotesEscaped body) (hclosed : ¬ IsOpen body)
    (rest : List Char) : readQuotedRest (body ++ '"' :: rest) = .ok (unescape body, rest) := by
  fun_induction unescape body with
  | case1 c cs ih =>
    exact readQuotedRest_backslash (ih (quotesEscaped_backslash.mp hquotes)
      (mt isOpen_backslash.mpr hclosed)) c
  | case2 c cs hpair ih =>
    have hslash : c ≠ '\\' := by
      refine ne_backslash hpair ?_
      rintro rfl rfl
      exact hclosed (isOpen_singleton.mpr rfl)
    obtain ⟨hquote, hquotes⟩ := (quotesEscaped_cons hslash).mp hquotes
    exact readQuotedRest_cons hslash hquote (ih hquotes (mt (isOpen_cons hslash).mpr hclosed))
  | case3 => rfl

theorem exists_body_of_readQuotedRest (h : readQuotedRest cs = .ok (text, rest)) :
    ∃ body, cs = body ++ '"' :: rest ∧ QuotesEscaped body ∧ ¬ IsOpen body ∧
      text = unescape body := by
  fun_induction readQuotedRest cs generalizing text rest with
  | case1 cs =>
    cases h
    exact ⟨[], rfl, quotesEscaped_nil, not_isOpen_nil, rfl⟩
  | case2 c cs text r hrec ih =>
    cases h
    obtain ⟨body, rfl, hquotes, hclosed, rfl⟩ := ih hrec
    exact ⟨'\\' :: c :: body, rfl, quotesEscaped_backslash.mpr hquotes,
      mt isOpen_backslash.mp hclosed, rfl⟩
  | case5 c cs hquote hpair hlast text r hrec ih =>
    cases h
    obtain ⟨body, rfl, hquotes, hclosed, rfl⟩ := ih hrec
    have hslash := ne_backslash hpair hlast
    exact ⟨c :: body, rfl, (quotesEscaped_cons hslash).mpr ⟨hquote, hquotes⟩,
      mt (isOpen_cons hslash).mp hclosed, (unescape_cons hslash body).symm⟩
  | case3 | case4 | case6 | case7 => cases h

theorem exists_cons_of_readQuoted (h : readQuoted cs = .ok (text, rest)) :
    ∃ more, cs = '"' :: more ∧ readQuotedRest more = .ok (text, rest) := by
  cases cs with
  | nil => cases h
  | cons c cs =>
    by_cases hc : c = '"'
    · subst hc
      exact ⟨cs, rfl, h⟩
    · have hfail : expect '"' (c :: cs) = .error (.expected '"' c) := if_neg hc
      rw [readQuoted, hfail] at h
      cases h

theorem readQuotedRest_eq_error_iff :
    readQuotedRest cs = .error .unterminatedValue ↔ QuotesEscaped cs := by
  fun_induction readQuotedRest cs with
  | case1 cs => exact iff_of_false (fun h => by cases h) fun h => not_isOpen_nil (h [] cs rfl)
  | case2 c cs text r hrec ih =>
    rw [quotesEscaped_backslash, ← ih, hrec]
    exact iff_of_false (fun h => by cases h) fun h => by cases h
  | case3 c cs e hrec ih => rw [quotesEscaped_backslash, ← ih, hrec]
  | case4 => exact iff_of_true rfl (quotesEscaped_singleton.mpr (by decide))
  | case5 c cs hquote hpair hlast text r hrec ih =>
    rw [quotesEscaped_cons (ne_backslash hpair hlast), and_iff_right hquote, ← ih, hrec]
    exact iff_of_false (fun h => by cases h) fun h => by cases h
  | case6 c cs hquote hpair hlast e hrec ih =>
    rw [quotesEscaped_cons (ne_backslash hpair hlast), and_iff_right hquote, ← ih, hrec]
  | case7 => exact iff_of_true rfl quotesEscaped_nil

/-- Unescaping gives back what was written. Reading in quotes gives what unescaping makes of the
text up to the first quote that is not escaped, and takes no more off the line; it fails exactly if
there is no such quote. -/
theorem readQuoted_judges :
    (∀ (bare : Nat → Bool) (cs : List Char), unescape (spell bare cs) = cs) ∧
      (∀ cs text rest, readQuoted cs = .ok (text, rest) ↔
        ∃ body, cs = '"' :: (body ++ '"' :: rest) ∧ QuotesEscaped body ∧ ¬ IsOpen body ∧
          text = unescape body) ∧
      ∀ cs, readQuoted ('"' :: cs) = .error .unterminatedValue ↔ QuotesEscaped cs := by
  refine ⟨unescape_spell, fun cs text rest => ?_, fun cs => readQuotedRest_eq_error_iff⟩
  constructor
  · intro h
    obtain ⟨more, rfl, hmore⟩ := exists_cons_of_readQuoted h
    obtain ⟨body, rfl, hbody⟩ := exists_body_of_readQuotedRest hmore
    exact ⟨body, rfl, hbody⟩
  · rintro ⟨body, rfl, hquotes, hclosed, rfl⟩
    exact readQuotedRest_body hquotes hclosed rest

/-- The second backslash is escaped, and so the quote behind it is not. -/
example : readQuoted ['"', '\\', '\\', '"', '"'] = .ok (['\\'], ['"']) := rfl

end RemoteWrite.Scrape
