import RemoteWrite.Text.Blank

/-!
# Blanks at the end

What is dropped from the end of a text may as well never have stood there. A run of characters of
one class is taken off whole where the text after it stops the class.
-/

namespace RemoteWrite.Text

variable {p : Char → Bool} {c : Char}

theorem dropEnd_concat (h : p c = true) (cs : List Char) : dropEnd p (cs ++ [c]) = dropEnd p cs := by
  rw [dropEnd, List.reverse_append, List.reverse_singleton, List.singleton_append,
    List.dropWhile_cons_of_pos h, ← dropEnd]

theorem exists_dropEnd_append (p : Char → Bool) (cs : List Char) :
    ∃ dropped, cs = dropEnd p cs ++ dropped ∧ ∀ c ∈ dropped, p c = true := by
  refine ⟨(cs.reverse.takeWhile p).reverse, ?_, fun c hc => ?_⟩
  · rw [dropEnd, ← List.reverse_append, List.takeWhile_append_dropWhile, List.reverse_reverse]
  · exact List.all_eq_true.mp List.all_takeWhile c (List.mem_reverse.mp hc)

theorem dropEnd_append {dropped : List Char} (h : ∀ c ∈ dropped, p c = true) (cs : List Char) :
    dropEnd p (cs ++ dropped) = dropEnd p cs := by
  induction dropped generalizing cs with
  | nil => rw [List.append_nil]
  | cons c dropped ih =>
    rw [List.forall_mem_cons] at h
    rw [List.append_cons, ih h.2, dropEnd_concat h.1]

theorem trim_concat (h : isBlank c = true) (cs : List Char) : trim (cs ++ [c]) = trim cs := by
  rw [trim, trim, List.dropWhile_append]
  split
  · next hnil => rw [List.isEmpty_iff.mp hnil, List.dropWhile_cons_of_pos h]; rfl
  · exact dropEnd_concat h _

theorem trim_append_blanks {blanks : List Char} (h : ∀ c ∈ blanks, isBlank c = true)
    (cs : List Char) : trim (cs ++ blanks) = trim cs := by
  induction blanks generalizing cs with
  | nil => rw [List.append_nil]
  | cons c blanks ih =>
    rw [List.forall_mem_cons] at h
    rw [List.append_cons, ih h.2, trim_concat h.1]

theorem trim_blanks_append {blanks : List Char} (h : ∀ c ∈ blanks, isBlank c = true)
    (cs : List Char) : trim (blanks ++ cs) = trim cs := by
  rw [trim, List.dropWhile_append_of_pos h, trim]

theorem trim_trimEnd (cs : List Char) : trim (trimEnd cs) = trim cs := by
  obtain ⟨dropped, hdropped, hblank⟩ := exists_dropEnd_append isBlank cs
  rw [← trimEnd] at hdropped
  exact (trim_append_blanks hblank _).symm.trans (by rw [← hdropped])

theorem mem_of_mem_trim {cs : List Char} (h : c ∈ trim cs) : c ∈ cs := by
  obtain ⟨dropped, hdropped, -⟩ := exists_dropEnd_append isBlank (cs.dropWhile isBlank)
  refine (List.dropWhile_sublist isBlank).mem ?_
  rw [hdropped]
  exact List.mem_append_left _ h

/-- The text with blanks around it. -/
def Padded (cs padded : List Char) : Prop :=
  ∃ before after, padded = before ++ cs ++ after ∧
    (∀ c ∈ before, isBlank c = true) ∧ ∀ c ∈ after, isBlank c = true

theorem Padded.trim_eq {cs padded : List Char} (h : Padded cs padded) :
    trim padded = trim cs := by
  obtain ⟨before, after, rfl, hbefore, hafter⟩ := h
  rw [trim_append_blanks hafter, trim_blanks_append hbefore]

/-! ### Runs of characters -/

/-- No character of the class comes first. -/
def Stops (p : Char → Bool) (cs : List Char) : Prop := ∀ c ∈ cs.head?, p c = false

namespace Stops
variable {cs rest : List Char}

theorem nil : Stops p [] := by
  intro c hc
  cases hc

theorem cons (h : p c = false) (cs : List Char) : Stops p (c :: cs) := by
  intro d hd
  cases hd
  exact h

theorem of_forall (h : ∀ c ∈ cs, p c = false) : Stops p cs :=
  fun c hc => h c (List.mem_of_mem_head? hc)

theorem ne_cons (h : Stops p cs) (hc : p c = true) (rest : List Char) : cs ≠ c :: rest := by
  rintro rfl
  rw [h c rfl] at hc
  cases hc

theorem append (h : Stops p cs) (hrest : Stops p rest) : Stops p (cs ++ rest) := by
  cases cs with
  | nil => exact hrest
  | cons c cs => exact cons (h c rfl) _

theorem append_left (h : Stops p cs) (hne : cs ≠ []) : Stops p (cs ++ rest) := by
  cases cs with
  | nil => exact absurd rfl hne
  | cons c cs => exact cons (h c rfl) _

theorem takeWhile_append (h : Stops p rest) (hcs : ∀ c ∈ cs, p c = true) :
    (cs ++ rest).takeWhile p = cs := by
  rw [List.takeWhile_append_of_pos hcs]
  cases rest with
  | nil => rw [List.takeWhile_nil, List.append_nil]
  | cons c rest => rw [List.takeWhile_cons_of_neg (by rw [h c rfl]; decide), List.append_nil]

theorem dropWhile_append (h : Stops p rest) (hcs : ∀ c ∈ cs, p c = true) :
    (cs ++ rest).dropWhile p = rest := by
  rw [List.dropWhile_append_of_pos hcs]
  cases rest with
  | nil => rfl
  | cons c rest => rw [List.dropWhile_cons_of_neg (by rw [h c rfl]; decide)]

theorem dropWhile (h : Stops p cs) : cs.dropWhile p = cs :=
  h.dropWhile_append (List.forall_mem_nil _)

theorem of_dropWhile (p : Char → Bool) (cs : List Char) : Stops p (cs.dropWhile p) := by
  intro c hc
  have hhead := List.head?_dropWhile_not p cs
  rw [hc] at hhead
  exact hhead

/-! A run ends where it did if what is appended to the text does not go on with it. -/

theorem takeWhile_append_right (h : Stops p (cs.dropWhile p ++ rest)) :
    (cs ++ rest).takeWhile p = cs.takeWhile p := by
  have happend : (cs.takeWhile p ++ (cs.dropWhile p ++ rest)).takeWhile p = cs.takeWhile p :=
    h.takeWhile_append fun c hc => List.all_eq_true.mp List.all_takeWhile c hc
  rwa [← List.append_assoc, List.takeWhile_append_dropWhile] at happend

theorem dropWhile_append_right (h : Stops p (cs.dropWhile p ++ rest)) :
    (cs ++ rest).dropWhile p = cs.dropWhile p ++ rest := by
  have happend :
      (cs.takeWhile p ++ (cs.dropWhile p ++ rest)).dropWhile p = cs.dropWhile p ++ rest :=
    h.dropWhile_append fun c hc => List.all_eq_true.mp List.all_takeWhile c hc
  rwa [← List.append_assoc, List.takeWhile_append_dropWhile] at happend

theorem dropWhile_append_of_ne_nil (h : cs.dropWhile p ≠ []) (rest : List Char) :
    (cs ++ rest).dropWhile p = cs.dropWhile p ++ rest :=
  dropWhile_append_right ((of_dropWhile p cs).append_left h)

end Stops

/-! ### Texts that end as they should -/

theorem stops_reverse_dropEnd (p : Char → Bool) (cs : List Char) :
    Stops p (dropEnd p cs).reverse := by
  rw [dropEnd, List.reverse_reverse]
  exact .of_dropWhile p _

theorem dropEnd_of_stops {cs : List Char} (h : Stops p cs.reverse) : dropEnd p cs = cs := by
  rw [dropEnd, h.dropWhile, List.reverse_reverse]

theorem dropEnd_append_of_ne_nil {cs : List Char} (h : dropEnd p cs ≠ []) (before : List Char) :
    dropEnd p (before ++ cs) = before ++ dropEnd p cs := by
  have hne : cs.reverse.dropWhile p ≠ [] := fun hnil => h (by rw [dropEnd, hnil]; rfl)
  rw [dropEnd, dropEnd, List.reverse_append, Stops.dropWhile_append_of_ne_nil hne,
    List.reverse_append, List.reverse_reverse]

/-- What is not dropped ends what is dropped. -/
theorem dropEnd_cons (h : p c = false) (cs : List Char) :
    dropEnd p (c :: cs) = c :: dropEnd p cs := by
  rw [dropEnd, List.reverse_cons,
    Stops.dropWhile_append_right ((Stops.of_dropWhile p _).append (.cons h [])), List.reverse_append]
  rfl

theorem exists_trimEnd_cons (h : isBlank c = false) (cs : List Char) :
    ∃ rest, trimEnd (c :: cs) = c :: rest :=
  ⟨dropEnd isBlank cs, dropEnd_cons h cs⟩

theorem trim_dropWhile (cs : List Char) : trim (cs.dropWhile isBlank) = trim cs := by
  rw [trim, (Stops.of_dropWhile isBlank cs).dropWhile, trim]

/-- Blanks are taken off on the left of what is no blank and on its right. -/
theorem trim_append_cons (h : isBlank c = false) (before after : List Char) :
    trim (before ++ c :: after) = before.dropWhile isBlank ++ c :: trimEnd after := by
  have hcons : dropEnd isBlank (c :: after) = c :: trimEnd after := dropEnd_cons h after
  have hne : dropEnd isBlank (c :: after) ≠ [] := by
    rw [hcons]
    exact List.cons_ne_nil _ _
  rw [trim, Stops.dropWhile_append_right ((Stops.of_dropWhile isBlank before).append (.cons h after)),
    trimEnd, dropEnd_append_of_ne_nil hne, hcons]

/-- What is left of a text is what stands between two runs of dropped characters. -/
theorem dropEnd_dropWhile_eq_iff {cs kept : List Char} (hne : kept ≠ []) (hfirst : Stops p kept)
    (hlast : Stops p kept.reverse) : dropEnd p (cs.dropWhile p) = kept ↔
      ∃ before after, cs = before ++ kept ++ after ∧
        (∀ c ∈ before, p c = true) ∧ ∀ c ∈ after, p c = true := by
  constructor
  · rintro rfl
    obtain ⟨after, hafter, hp⟩ := exists_dropEnd_append p (cs.dropWhile p)
    refine ⟨cs.takeWhile p, after, ?_, List.all_eq_true.mp List.all_takeWhile, hp⟩
    rw [List.append_assoc, ← hafter, List.takeWhile_append_dropWhile]
  · rintro ⟨before, after, rfl, hbefore, hafter⟩
    rw [List.append_assoc, Stops.dropWhile_append (hfirst.append_left hne) hbefore,
      dropEnd_append hafter, dropEnd_of_stops hlast]

/-- A text with no blank at either end. -/
theorem trim_of_stops {cs : List Char} (h : Stops isBlank cs) (hend : Stops isBlank cs.reverse) :
    trim cs = cs := by
  rw [trim, h.dropWhile, trimEnd, dropEnd_of_stops hend]

theorem trim_of_forall {cs : List Char} (h : ∀ c ∈ cs, isBlank c = false) : trim cs = cs :=
  trim_of_stops (.of_forall h) (.of_forall fun c hc => h c (List.mem_reverse.mp hc))

/-- What is no blank is not trimmed away. -/
theorem trim_ne_nil {cs : List Char} (hc : c ∈ cs) (h : isBlank c = false) : trim cs ≠ [] := by
  intro hnil
  obtain ⟨dropped, hdropped, hblank⟩ := exists_dropEnd_append isBlank (cs.dropWhile isBlank)
  have htrim : dropEnd isBlank (cs.dropWhile isBlank) = [] := hnil
  rw [htrim, List.nil_append] at hdropped
  rw [← List.takeWhile_append_dropWhile (p := isBlank) (l := cs)] at hc
  rcases List.mem_append.mp hc with hc | hc
  · have := List.all_eq_true.mp List.all_takeWhile c hc
    rw [h] at this
    cases this
  · rw [hdropped] at hc
    have := hblank c hc
    rw [h] at this
    cases this

theorem isBlank_of_visible (hlow : '!' ≤ c) (hhigh : c ≤ '~') : isBlank c = false := by
  have h33 : 33 ≤ c.toNat := hlow
  have h126 : c.toNat ≤ 126 := hhigh
  simp only [isBlank, Bool.or_eq_false_iff, Bool.and_eq_false_iff, decide_eq_false_iff_not,
    beq_eq_false_iff_ne]
  omega

end RemoteWrite.Text
