import Mathlib.Data.List.Infix
import Mathlib.Data.List.Nodup
import RemoteWrite.Trial.LaunchInfo

/-!
# Filling placeholders one after another

`Filled pairs cs out`: `out` is `cs` with every pattern of `pairs` in it replaced by its value, all
at once, and every other character kept. Replacing one pattern after another throughout the text
comes to the same exactly if no later pattern begins in an earlier value (`filled_passes_iff`). A
pattern that begins in a value need not end there: what follows the value may complete it.

Patterns are names in braces, so no two of them overlap, and no value starts with a character that a
later pattern has (`Placeholders`): nothing is completed at the left end of a value.
-/

namespace RemoteWrite

/-- Patterns with what they are replaced by. -/
abbrev Pairs := List (List Char × List Char)

/-- All patterns replaced at once. -/
inductive Filled (pairs : Pairs) : List Char → List Char → Prop
  | nil : Filled pairs [] []
  | value {pair : List Char × List Char} {cs out : List Char} (h : pair ∈ pairs)
      (rest : Filled pairs cs out) : Filled pairs (pair.1 ++ cs) (pair.2 ++ out)
  | char {c : Char} {cs out : List Char} (h : ∀ pair ∈ pairs, ¬ pair.1 <+: c :: cs)
      (rest : Filled pairs cs out) : Filled pairs (c :: cs) (c :: out)

/-- The patterns replaced one after another. -/
def passes (pairs : Pairs) (cs : List Char) : List Char :=
  pairs.foldl (fun cs pair => replaceFrom pair.1 pair.2 0 cs) cs

/-- The pattern occurs in the text, or the text ends with the first characters of it. -/
def Begins (pattern text : List Char) : Prop :=
  ∃ rest, rest ≠ [] ∧ rest <:+ text ∧ (rest <+: pattern ∨ pattern <+: rest)

/-- Braces stand at both ends of the pattern and nowhere else in it. -/
def IsPlaceholder (pattern : List Char) : Prop :=
  ∃ name, pattern = '{' :: (name ++ ['}']) ∧ '{' ∉ name ∧ '}' ∉ name

/-- A value starts neither with a brace nor with a character of a later pattern. -/
structure Placeholders (pairs : Pairs) : Prop where
  pattern : ∀ a ∈ pairs, IsPlaceholder a.1
  value : ∀ a ∈ pairs, ∃ c rest, a.2 = c :: rest ∧ c ≠ '{'
  later : pairs.Pairwise fun a b => a.1 ≠ b.1 ∧ ∃ c rest, a.2 = c :: rest ∧ c ∉ b.1

variable {pairs done : Pairs} {a b : List Char × List Char} {p q value cs out x y : List Char}
  {c : Char}

/-! ### One pass -/

theorem Begins.of_suffix (h : Begins p x) (hx : x <:+ y) : Begins p y := by
  obtain ⟨rest, hne, hrest, hor⟩ := h
  exact ⟨rest, hne, hrest.trans hx, hor⟩

theorem replaceFrom_skip (skip : Nat) (cs : List Char) :
    replaceFrom p value skip cs = replaceFrom p value 0 (cs.drop skip) := by
  induction cs generalizing skip with
  | nil => cases skip <;> rfl
  | cons c cs ih =>
    cases skip with
    | zero => rfl
    | succ skip =>
      rw [replaceFrom, List.drop_succ_cons]
      exact ih skip

theorem replaceFrom_pattern (hp : p ≠ []) (value cs : List Char) :
    replaceFrom p value 0 (p ++ cs) = value ++ replaceFrom p value 0 cs := by
  obtain ⟨d, p, rfl⟩ := List.exists_cons_of_ne_nil hp
  have hprefix : (d :: p).isPrefixOf (d :: (p ++ cs)) = true :=
    List.isPrefixOf_iff_prefix.mpr ⟨cs, rfl⟩
  rw [List.cons_append, replaceFrom, if_pos hprefix, replaceFrom_skip, List.length_cons,
    Nat.add_sub_cancel, List.drop_left]

theorem replaceFrom_cons (h : ¬ p <+: c :: cs) (value : List Char) :
    replaceFrom p value 0 (c :: cs) = c :: replaceFrom p value 0 cs := by
  rw [replaceFrom, if_neg fun hp => h (List.isPrefixOf_iff_prefix.mp hp)]

/-- Text in which the pattern does not begin is passed over. -/
theorem replaceFrom_append (h : ¬ Begins p x) (value cs : List Char) :
    replaceFrom p value 0 (x ++ cs) = x ++ replaceFrom p value 0 cs := by
  induction x with
  | nil => rfl
  | cons d x ih =>
    have hnot : ¬ p <+: d :: (x ++ cs) := by
      intro hp
      refine h ⟨d :: x, List.cons_ne_nil _ _, List.suffix_rfl, ?_⟩
      exact List.prefix_or_prefix_of_prefix (List.prefix_append (d :: x) cs) hp
    rw [List.cons_append, replaceFrom_cons hnot, List.cons_append,
      ih fun hx => h (hx.of_suffix (List.suffix_cons d x))]

theorem replaceFrom_eq_self (h : ¬ Begins p cs) (value : List Char) :
    replaceFrom p value 0 cs = cs := by
  have happend := replaceFrom_append h value []
  rwa [List.append_nil, replaceFrom, List.append_nil] at happend

/-! ### Where a pattern begins -/

theorem Begins.append (h : Begins p (x ++ y)) : Begins p x ∨ Begins p y := by
  induction x with
  | nil => exact .inr h
  | cons d x ih =>
    obtain ⟨rest, hne, hrest, hor⟩ := h
    rw [List.cons_append, List.suffix_cons_iff] at hrest
    rcases hrest with rfl | hrest
    · refine .inl ⟨d :: x, List.cons_ne_nil _ _, List.suffix_rfl, ?_⟩
      rcases hor with hor | hor
      · exact .inl ((List.prefix_append (d :: x) y).trans hor)
      · exact List.prefix_or_prefix_of_prefix (List.prefix_append (d :: x) y) hor
    · exact (ih ⟨rest, hne, hrest, hor⟩).imp_left
        fun hx => hx.of_suffix (List.suffix_cons d x)

namespace IsPlaceholder

theorem ne_nil (h : IsPlaceholder p) : p ≠ [] := by
  obtain ⟨name, rfl, -⟩ := h
  exact List.cons_ne_nil _ _

theorem eq_cons (h : IsPlaceholder p) : ∃ rest, p = '{' :: rest ∧ '{' ∉ rest := by
  obtain ⟨name, rfl, hopen, -⟩ := h
  refine ⟨_, rfl, ?_⟩
  rw [List.mem_append, List.mem_singleton]
  rintro (hmem | heq)
  · exact hopen hmem
  · cases heq

/-- A placeholder ends with the first closing brace. -/
theorem eq_of_append_eq (hp : IsPlaceholder p) (hq : IsPlaceholder q) (h : p ++ x = q ++ y) :
    p = q := by
  obtain ⟨name, rfl, -, hname⟩ := hp
  obtain ⟨name', rfl, -, hname'⟩ := hq
  have htake : ∀ (name cs : List Char), '}' ∉ name →
      (name ++ '}' :: cs).takeWhile (· ≠ '}') = name := by
    intro name cs hname
    have hne : ∀ c ∈ name, decide (c ≠ '}') = true := fun c hc =>
      decide_eq_true (ne_of_mem_of_not_mem hc hname)
    rw [List.takeWhile_append_of_pos hne, List.takeWhile_cons_of_neg (by simp), List.append_nil]
  have heq : name ++ '}' :: x = name' ++ '}' :: y := by simpa using h
  rw [← htake name x hname, heq, htake name' y hname']

/-- A placeholder begins where its brace is. -/
theorem exists_of_begins (hp : IsPlaceholder p) (h : Begins p x) :
    ∃ rest, '{' :: rest <:+ x ∧ ('{' :: rest <+: p ∨ p <+: '{' :: rest) := by
  obtain ⟨after, rfl, -⟩ := hp.eq_cons
  obtain ⟨rest, hne, hrest, hor⟩ := h
  obtain ⟨d, rest, rfl⟩ := List.exists_cons_of_ne_nil hne
  have hd : d = '{' := by
    rcases hor with hor | hor
    · exact (List.cons_prefix_cons.mp hor).1
    · exact (List.cons_prefix_cons.mp hor).1.symm
  subst hd
  exact ⟨rest, hrest, hor⟩

theorem not_begins_of_not_mem (hp : IsPlaceholder p) (hx : '{' ∉ x) : ¬ Begins p x := by
  intro h
  obtain ⟨rest, hrest, -⟩ := hp.exists_of_begins h
  exact hx (hrest.subset List.mem_cons_self)

theorem begins_append_iff (hp : IsPlaceholder p) (hx : '{' ∉ x) :
    Begins p (x ++ y) ↔ Begins p y :=
  ⟨fun h => h.append.resolve_left (hp.not_begins_of_not_mem hx),
    fun h => h.of_suffix (List.suffix_append x y)⟩

/-- No placeholder begins in another one. -/
theorem not_begins_of_ne (hp : IsPlaceholder p) (hq : IsPlaceholder q) (hne : p ≠ q) :
    ¬ Begins p q := by
  intro h
  obtain ⟨after, hafter, hopen⟩ := hq.eq_cons
  obtain ⟨rest, hrest, hor⟩ := hp.exists_of_begins h
  rw [hafter, List.suffix_cons_iff] at hrest
  rcases hrest with heq | hrest
  · rw [heq, ← hafter] at hor
    rcases hor with ⟨x, hx⟩ | ⟨x, hx⟩
    · exact hne (hp.eq_of_append_eq (x := []) (y := x) hq (by rw [List.append_nil, hx]))
    · exact hne (hp.eq_of_append_eq (x := x) (y := []) hq (by rw [List.append_nil, hx]))
  · exact hopen (hrest.subset List.mem_cons_self)

/-- Where a placeholder begins some text without an opening brace completes it. -/
theorem exists_completion (hp : IsPlaceholder p) (h : Begins p x) :
    ∃ more, '{' ∉ more ∧ p <:+: x ++ more := by
  obtain ⟨rest, hrest, ⟨more, hmore⟩ | hprefix⟩ := hp.exists_of_begins h
  · obtain ⟨after, hafter, hopen⟩ := hp.eq_cons
    obtain ⟨front, rfl⟩ := hrest
    refine ⟨more, fun hmem => hopen ?_, front, [], by rw [← hmore]; simp⟩
    rw [hafter, List.cons_append, List.cons.injEq] at hmore
    rw [← hmore.2]
    exact List.mem_append_right _ hmem
  · refine ⟨[], List.not_mem_nil, ?_⟩
    rw [List.append_nil]
    exact hprefix.isInfix.trans hrest.isInfix

end IsPlaceholder

namespace Placeholders

theorem of_sublist (h : Placeholders pairs) (hsub : done.Sublist pairs) : Placeholders done where
  pattern a ha := h.pattern a (hsub.subset ha)
  value a ha := h.value a (hsub.subset ha)
  later := h.later.sublist hsub

theorem eq_of_pattern_eq (h : Placeholders pairs) (ha : a ∈ pairs) (hb : b ∈ pairs)
    (hab : a.1 = b.1) : a = b := by
  have hnodup : (pairs.map (·.1)).Nodup := List.pairwise_map.mpr (h.later.imp And.left)
  exact List.inj_on_of_nodup_map hnodup ha hb hab

end Placeholders

/-! ### All at once -/

namespace Filled

theorem self (h : ∀ pair ∈ pairs, IsPlaceholder pair.1) (hcs : '{' ∉ cs) : Filled pairs cs cs := by
  induction cs with
  | nil => exact .nil
  | cons d cs ih =>
    rw [List.mem_cons, not_or] at hcs
    refine .char (fun pair hpair hprefix => ?_) (ih hcs.2)
    obtain ⟨rest, hrest, -⟩ := (h pair hpair).eq_cons
    rw [hrest] at hprefix
    exact hcs.1 (List.cons_prefix_cons.mp hprefix).1

/-- The text says what it is filled to. -/
theorem unique (hpairs : Placeholders pairs) {out' : List Char} (h : Filled pairs cs out)
    (h' : Filled pairs cs out') : out = out' := by
  induction h generalizing out' with
  | nil =>
    generalize htext : ([] : List Char) = text at h'
    cases h' with
    | nil => rfl
    | @value b cs out' hb _ =>
      exact absurd (List.append_eq_nil_iff.mp htext.symm).1 (hpairs.pattern b hb).ne_nil
    | char => cases htext
  | @value a cs out ha _ ih =>
    generalize htext : a.1 ++ cs = text at h'
    cases h' with
    | nil => exact absurd (List.append_eq_nil_iff.mp htext).1 (hpairs.pattern a ha).ne_nil
    | @value b cs' out' hb hrest =>
      have hab := (hpairs.pattern a ha).eq_of_append_eq (hpairs.pattern b hb) htext
      obtain rfl := hpairs.eq_of_pattern_eq ha hb hab
      rw [ih (List.append_cancel_left htext ▸ hrest)]
    | char hnone _ => exact absurd ⟨cs, htext⟩ (hnone a ha)
  | @char c cs out hnone _ ih =>
    generalize htext : c :: cs = text at h'
    cases h' with
    | nil => cases htext
    | @value b cs' out' hb _ => exact absurd ⟨cs', htext.symm⟩ (hnone b hb)
    | char _ hrest =>
      cases htext
      rw [ih hrest]

/-- A pattern in what was filled, of which no value has the first character, was there before. -/
theorem prefix_of_filled (hopen : ∀ a ∈ done, ∃ c rest, a.2 = c :: rest ∧ c ∉ p)
    (h : Filled done cs out) (hp : p <+: out) : p <+: cs := by
  induction h generalizing p with
  | nil => exact hp
  | @value a cs out ha hrest ih =>
    obtain ⟨d, w, hw, hd⟩ := hopen a ha
    rw [hw] at hp
    cases p with
    | nil => exact List.nil_prefix
    | cons e p =>
      rw [List.cons_append, List.cons_prefix_cons] at hp
      exact absurd (hp.1 ▸ List.mem_cons_self) hd
  | @char d cs out hnone hrest ih =>
    cases p with
    | nil => exact List.nil_prefix
    | cons e p =>
      rw [List.cons_prefix_cons] at hp ⊢
      refine ⟨hp.1, ih (fun a ha => ?_) hp.2⟩
      obtain ⟨c, rest, hvalue, hc⟩ := hopen a ha
      exact ⟨c, rest, hvalue, fun hmem => hc (List.mem_cons_of_mem e hmem)⟩

/-- Text in which no pattern begins is kept. -/
theorem exists_of_append (hx : ∀ a ∈ done, ¬ Begins a.1 x) (h : Filled done (x ++ cs) out) :
    ∃ out', out = x ++ out' ∧ Filled done cs out' := by
  induction x generalizing out with
  | nil => exact ⟨out, rfl, h⟩
  | cons d x ih =>
    generalize htext : d :: x ++ cs = text at h
    cases h with
    | nil => cases htext
    | @value a cs' out' ha hrest =>
      refine absurd ⟨d :: x, List.cons_ne_nil _ _, List.suffix_rfl, ?_⟩ (hx a ha)
      exact List.prefix_or_prefix_of_prefix (List.prefix_append _ cs) ⟨cs', htext.symm⟩
    | @char e cs' out' hnone hrest =>
      cases htext
      obtain ⟨out, rfl, hout⟩ := ih (fun a ha hbegins =>
        hx a ha (hbegins.of_suffix (List.suffix_cons d x))) hrest
      exact ⟨out, rfl, hout⟩

/-- One pass more. -/
theorem concat {a : List Char × List Char} (ha : a.1 ≠ [])
    (hdone : ∀ b ∈ done, b.1 ≠ [] ∧ ¬ Begins a.1 b.2 ∧ ¬ Begins b.1 a.1 ∧
      ∃ c rest, b.2 = c :: rest ∧ c ∉ a.1) (h : Filled done cs out) :
    Filled (done ++ [a]) cs (replaceFrom a.1 a.2 0 out) := by
  induction hlength : cs.length using Nat.strong_induction_on generalizing cs out with
  | _ n ih =>
    subst hlength
    cases h with
    | nil => exact .nil
    | @value b cs out hb hrest =>
      have hlt : cs.length < (b.1 ++ cs).length := by
        have := List.length_pos_iff.mpr (hdone b hb).1
        rw [List.length_append]
        omega
      rw [replaceFrom_append (hdone b hb).2.1]
      exact .value (List.mem_append_left _ hb) (ih _ hlt hrest rfl)
    | @char c cs out hnone hrest =>
      by_cases hprefix : a.1 <+: c :: cs
      · obtain ⟨after, hafter⟩ := hprefix
        have hfilled : Filled done (a.1 ++ after) (c :: out) := hafter ▸ .char hnone hrest
        obtain ⟨out', hout, hrest'⟩ :=
          hfilled.exists_of_append fun b hb => (hdone b hb).2.2.1
        have hlt : after.length < (c :: cs).length := by
          have := List.length_pos_iff.mpr ha
          rw [← hafter, List.length_append]
          omega
        rw [hout, replaceFrom_pattern ha, ← hafter]
        exact .value (List.mem_append_right _ (List.mem_singleton_self a)) (ih _ hlt hrest' rfl)
      · have hnot : ¬ a.1 <+: c :: out := fun hout =>
          hprefix ((Filled.char hnone hrest).prefix_of_filled (fun b hb => (hdone b hb).2.2.2) hout)
        rw [replaceFrom_cons hnot]
        refine .char ?_ (ih _ (Nat.lt_succ_self _) hrest rfl)
        rw [List.forall_mem_append, List.forall_mem_singleton]
        exact ⟨hnone, hprefix⟩

/-- An occurrence of a pattern does not stay. -/
theorem ne_of_occurs (hpairs : Placeholders pairs) (hb : b ∈ pairs) (h : Filled pairs cs out)
    (hoccurs : b.1 <:+: cs) : out ≠ cs := by
  induction h with
  | nil => exact absurd (List.infix_nil.mp hoccurs) (hpairs.pattern b hb).ne_nil
  | @value a cs out ha hrest ih =>
    obtain ⟨rest, hpattern, -⟩ := (hpairs.pattern a ha).eq_cons
    obtain ⟨c, w, hvalue, hc⟩ := hpairs.value a ha
    rw [hpattern, hvalue]
    intro heq
    exact hc (List.cons.inj heq).1
  | @char c cs out hnone hrest ih =>
    intro heq
    rcases List.infix_cons_iff.mp hoccurs with hprefix | hcs
    · exact hnone b hb hprefix
    · exact ih hcs (List.cons.inj heq).2

end Filled

/-! ### All passes -/

theorem passes_append (pairs more : Pairs) (cs : List Char) :
    passes (pairs ++ more) cs = passes more (passes pairs cs) := List.foldl_append

theorem passes_cons (a : List Char × List Char) (pairs : Pairs) (cs : List Char) :
    passes (a :: pairs) cs = passes pairs (replaceFrom a.1 a.2 0 cs) := rfl

theorem passes_eq_self (h : ∀ a ∈ pairs, ¬ Begins a.1 cs) : passes pairs cs = cs := by
  induction pairs with
  | nil => rfl
  | cons a pairs ih =>
    rw [List.forall_mem_cons] at h
    rw [passes_cons, replaceFrom_eq_self h.1, ih h.2]

theorem filled_passes (h : Placeholders pairs)
    (hbegins : pairs.Pairwise fun a b => ¬ Begins b.1 a.2) (cs : List Char) :
    Filled pairs cs (passes pairs cs) := by
  induction pairs using List.reverseRecOn with
  | nil =>
    induction cs with
    | nil => exact .nil
    | cons c cs ih => exact .char (fun a ha => absurd ha List.not_mem_nil) ih
  | append_singleton done a ih =>
    have hdone := h.of_sublist (List.sublist_append_left done [a])
    obtain ⟨hbefore, -, hlast⟩ := List.pairwise_append.mp hbegins
    obtain ⟨-, -, hlater⟩ := List.pairwise_append.mp h.later
    have ha := h.pattern a (List.mem_append_right _ (List.mem_singleton_self a))
    rw [passes_append]
    refine Filled.concat ha.ne_nil (fun b hb => ?_) (ih hdone hbefore)
    have hpattern := hdone.pattern b hb
    obtain ⟨hne, hopen⟩ := hlater b hb a (List.mem_singleton_self a)
    exact ⟨hpattern.ne_nil, hlast b hb a (List.mem_singleton_self a),
      hpattern.not_begins_of_ne ha hne, hopen⟩

/-- The text of one placeholder and of what completes another one tells whether that begins in the
value. -/
theorem not_begins_of_filled {before after : Pairs} (h : Placeholders (before ++ a :: after))
    (hfilled : ∀ cs, Filled (before ++ a :: after) cs (passes (before ++ a :: after) cs))
    (hafter : after.Pairwise fun a b => ¬ Begins b.1 a.2) (hb : b ∈ after) :
    ¬ Begins b.1 a.2 := by
  intro hbegins
  have hsub : after.Sublist (before ++ a :: after) :=
    (List.sublist_cons_self a after).trans (List.sublist_append_right before _)
  have ha : a ∈ before ++ a :: after := List.mem_append_right _ List.mem_cons_self
  have hlater := h.of_sublist hsub
  obtain ⟨more, hopen, hoccurs⟩ := (hlater.pattern b hb).exists_completion hbegins
  have hright : passes (before ++ a :: after) (a.1 ++ more) = a.2 ++ more :=
    (hfilled _).unique h (.value ha (.self h.pattern hopen))
  have hbefore : passes before (a.1 ++ more) = a.1 ++ more := by
    refine passes_eq_self fun d hd hbegins => ?_
    have hpattern := h.pattern d (List.mem_append_left _ hd)
    have hne := ((List.pairwise_append.mp h.later).2.2 d hd a List.mem_cons_self).1
    rcases hbegins.append with hbegins | hbegins
    · exact hpattern.not_begins_of_ne (h.pattern a ha) hne hbegins
    · exact hpattern.not_begins_of_not_mem hopen hbegins
  have hleft : passes (before ++ a :: after) (a.1 ++ more) = passes after (a.2 ++ more) := by
    rw [passes_append, hbefore, passes_cons, replaceFrom_pattern (h.pattern a ha).ne_nil,
      replaceFrom_eq_self ((h.pattern a ha).not_begins_of_not_mem hopen)]
  exact (filled_passes hlater hafter (a.2 ++ more)).ne_of_occurs hlater hb hoccurs
    (hleft.symm.trans hright)

/-- One after another is all at once exactly if no later pattern begins in a value. -/
theorem filled_passes_iff (h : Placeholders pairs) :
    (∀ cs, Filled pairs cs (passes pairs cs)) ↔ pairs.Pairwise fun a b => ¬ Begins b.1 a.2 := by
  refine ⟨fun hfilled => ?_, filled_passes h⟩
  -- from the last pattern on, since what later passes do has to be known
  have hall : ∀ after before : Pairs, before ++ after = pairs →
      after.Pairwise fun a b => ¬ Begins b.1 a.2 := by
    intro after
    induction after with
    | nil => exact fun _ _ => .nil
    | cons a after ih =>
      rintro before rfl
      have hafter := ih (before ++ [a]) (by simp)
      exact .cons (fun b hb => not_begins_of_filled h hfilled hafter hb) hafter
  exact hall pairs [] rfl

end RemoteWrite
