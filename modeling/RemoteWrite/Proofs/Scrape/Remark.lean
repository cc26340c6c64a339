import Mathlib
import RemoteWrite.Proofs.Scrape.Gap
import RemoteWrite.Proofs.Scrape.Lines
import RemoteWrite.Proofs.Scrape.Quoted
import RemoteWrite.Proofs.Traversal

/-!
# What may follow a sample

`Scrape.read_append_remark`: a line that is read as a sample is read as the same sample when a hash
and any text follow it. Each reader stops at a character that it has seen, such as a quote or a
brace, or where a blank comes; so from a longer line it takes what it took before, and what was
appended is left. Only a timestamp that is not there would be looked for behind the end of the line,
and there a hash tells that there is none.
-/

namespace RemoteWrite.Scrape

open Text (Stops)

variable {format : ScrapeFormat} {want : Char} {cs r rest text : List Char} {s : Sample}
  {label : String × String} {labels : LabelList} {room : Nat}

/-! ### Parts that end with a character of their own -/

theorem expect_ne_nil (h : expect want cs = .ok r) : cs ≠ [] := by
  rintro rfl
  cases h

theorem expect_append (h : expect want cs = .ok r) (rest : List Char) :
    expect want (cs ++ rest) = .ok (r ++ rest) := by
  cases cs with
  | nil => cases h
  | cons c cs =>
    simp only [expect, List.cons_append] at h ⊢
    split at h
    · next hc => cases h; rw [if_pos hc]
    · cases h

theorem readQuotedRest_append (h : readQuotedRest cs = .ok (text, r)) (rest : List Char) :
    readQuotedRest (cs ++ rest) = .ok (text, r ++ rest) := by
  fun_induction readQuotedRest cs generalizing text r with
  | case1 cs => cases h; rfl
  | case2 c cs text r hrec ih =>
    cases h
    exact readQuotedRest_backslash (ih hrec) c
  | case5 c cs hquote hpair hlast text r hrec ih =>
    cases h
    exact readQuotedRest_cons (ne_backslash hpair hlast) hquote (ih hrec)
  | case3 | case4 | case6 | case7 => cases h

theorem readQuoted_ne_nil (h : readQuoted cs = .ok (text, r)) : cs ≠ [] := by
  obtain ⟨_, ha, -⟩ := exists_of_bind_eq_ok h
  exact expect_ne_nil ha

theorem readQuoted_append_right (h : readQuoted cs = .ok (text, r)) (rest : List Char) :
    readQuoted (cs ++ rest) = .ok (text, r ++ rest) := by
  obtain ⟨a, ha, htext⟩ := exists_of_bind_eq_ok h
  exact bind_eq_ok_iff.mpr ⟨a ++ rest, expect_append ha rest, readQuotedRest_append htext rest⟩

theorem skipGap_append_of_ne_nil (h : skipGap cs ≠ []) (rest : List Char) :
    skipGap (cs ++ rest) = skipGap cs ++ rest :=
  Stops.dropWhile_append_of_ne_nil h rest

/-! ### Labels -/

theorem readLabel_eq_ok_iff : readLabel cs = .ok (label, r) ↔
    cs.takeWhile isLabelNameChar ≠ [] ∧
      ∃ a, expect '=' (skipGap (cs.dropWhile isLabelNameChar)) = .ok a ∧
        ∃ value b, readQuoted (skipGap a) = .ok (value, b) ∧
          (String.ofList (cs.takeWhile isLabelNameChar), String.ofList value) = label ∧
          skipGap b = r := by
  unfold readLabel
  dsimp only
  split
  · next hnil =>
    refine iff_of_false (fun h => ?_) fun h => h.1 (List.isEmpty_iff.mp hnil)
    cases h
  · next hne =>
    rw [and_iff_right fun h => hne (List.isEmpty_iff.mpr h)]
    simp only [bind_eq_ok_iff, pure, Except.pure, Except.ok.injEq, Prod.mk.injEq, Prod.exists]

/-- The gap after a label is known to be over only if something is left. -/
theorem readLabel_append (h : readLabel cs = .ok (label, r)) (hne : r ≠ []) (rest : List Char) :
    readLabel (cs ++ rest) = .ok (label, r ++ rest) := by
  obtain ⟨hname, a, ha, value, b, hb, rfl, rfl⟩ := readLabel_eq_ok_iff.mp h
  have hdrop : cs.dropWhile isLabelNameChar ≠ [] := fun hnil =>
    expect_ne_nil ha (by rw [hnil]; rfl)
  have hstops : Stops isLabelNameChar (cs.dropWhile isLabelNameChar ++ rest) :=
    (Stops.of_dropWhile _ cs).append_left hdrop
  refine readLabel_eq_ok_iff.mpr ?_
  rw [hstops.takeWhile_append_right, hstops.dropWhile_append_right,
    skipGap_append_of_ne_nil (expect_ne_nil ha)]
  refine ⟨hname, a ++ rest, expect_append ha rest, value, b ++ rest, ?_, rfl,
    skipGap_append_of_ne_nil hne rest⟩
  rw [skipGap_append_of_ne_nil (readQuoted_ne_nil hb)]
  exact readQuoted_append_right hb rest

/-- One step: the closing brace, or a label with the closing brace or a comma and more. -/
theorem readLabels_succ_eq_ok_iff : readLabels (room + 1) cs = .ok (labels, r) ↔
    (skipGap cs = '}' :: r ∧ labels = []) ∨
      ∃ label a, readLabel (skipGap cs) = .ok (label, a) ∧
        ((a = '}' :: r ∧ labels = [label]) ∨
          ∃ b more, a = ',' :: b ∧ readLabels room b = .ok (more, r) ∧ labels = label :: more) := by
  rw [readLabels]
  split
  · next after hbrace =>
    have hfail : ∀ label a, readLabel ('}' :: after) ≠ .ok (label, a) := fun label a h =>
      (readLabel_eq_ok_iff.mp h).1 rfl
    rw [hbrace]
    simp only [hfail, false_and, exists_false, or_false, Except.ok.injEq, Prod.mk.injEq,
      List.cons.injEq, true_and]
    exact ⟨fun h => ⟨h.2, h.1.symm⟩, fun h => ⟨h.2.symm, h.1⟩⟩
  · next hbrace =>
    rw [or_iff_right fun h => hbrace r h.1, bind_eq_ok_iff, Prod.exists]
    refine exists_congr fun label => exists_congr fun a => and_congr_right fun _ => ?_
    dsimp only
    split
    · next b _ =>
      simp only [bind_eq_ok_iff, Prod.exists, pure, Except.pure, Except.ok.injEq, Prod.mk.injEq]
      constructor
      · rintro ⟨more, _, hmore, rfl, rfl⟩
        exact .inr ⟨b, more, rfl, hmore, rfl⟩
      · rintro (⟨h, -⟩ | ⟨_, more, h, hmore, rfl⟩)
        · cases h
        · cases h
          exact ⟨more, r, hmore, rfl, rfl⟩
    · next b _ =>
      simp only [pure, Except.pure, Except.ok.injEq, Prod.mk.injEq]
      constructor
      · rintro ⟨rfl, rfl⟩
        exact .inl ⟨rfl, rfl⟩
      · rintro (⟨h, rfl⟩ | ⟨_, _, h, -⟩)
        · cases h
          exact ⟨rfl, rfl⟩
        · cases h
    · next hcomma hclose =>
      refine iff_of_false (fun h => by cases h) ?_
      rintro (⟨rfl, -⟩ | ⟨b, _, rfl, -⟩)
      · exact hclose r rfl
      · exact hcomma b rfl

/-- A longer line has room for more labels. -/
theorem readLabels_append (h : readLabels room cs = .ok (labels, r)) {more : Nat}
    (hroom : room ≤ more) (rest : List Char) :
    readLabels more (cs ++ rest) = .ok (labels, r ++ rest) := by
  induction room generalizing cs labels more with
  | zero => cases h
  | succ room ih =>
    obtain ⟨more, rfl⟩ := Nat.exists_eq_add_of_lt hroom
    rw [readLabels_succ_eq_ok_iff] at h ⊢
    obtain ⟨hbrace, rfl⟩ | ⟨label, a, hlabel, hafter⟩ := h
    · have hne : skipGap cs ≠ [] := by rw [hbrace]; exact List.cons_ne_nil _ _
      exact .inl ⟨by rw [skipGap_append_of_ne_nil hne, hbrace]; rfl, rfl⟩
    · have hne : skipGap cs ≠ [] := fun hnil => by rw [hnil] at hlabel; cases hlabel
      refine .inr ⟨label, a ++ rest, ?_, ?_⟩
      · rw [skipGap_append_of_ne_nil hne]
        refine readLabel_append hlabel ?_ rest
        rintro rfl
        obtain ⟨h, -⟩ | ⟨b, more, h, -⟩ := hafter
        · cases h
        · cases h
      · obtain ⟨rfl, rfl⟩ | ⟨b, later, rfl, hlater, rfl⟩ := hafter
        · exact .inl ⟨rfl, rfl⟩
        · exact .inr ⟨b ++ rest, later, rfl, ih hlater (by omega), rfl⟩

/-- The labels of a sample, if it has any, from behind its name on. -/
def readBlock : List Char → Except LineFault (LabelList × List Char)
  | '{' :: cs => readLabels (cs.length + 1) cs
  | cs => .ok ([], cs)

theorem readBlock_of_ne (h : ∀ r, cs = '{' :: r → False) : readBlock cs = .ok ([], cs) := by
  unfold readBlock
  split
  · exact (h _ rfl).elim
  · rfl

theorem readBlock_append (h : readBlock cs = .ok (labels, r)) (hne : cs ≠ []) (rest : List Char) :
    readBlock (cs ++ rest) = .ok (labels, r ++ rest) := by
  obtain ⟨c, cs, rfl⟩ := List.exists_cons_of_ne_nil hne
  rw [List.cons_append]
  unfold readBlock at h
  split at h
  · next heq =>
    cases heq
    exact readLabels_append h (by rw [List.length_append]; omega) rest
  · next hbrace =>
    cases h
    refine readBlock_of_ne fun after heq => ?_
    cases heq
    exact hbrace _ rfl

/-! ### Remarks -/

/-- Blanks, and then a hash with any text. -/
def IsRemark (cs : List Char) : Prop :=
  ∃ blanks text, cs = blanks ++ '#' :: text ∧ blanks ≠ [] ∧ ∀ c ∈ blanks, Text.isBlank c = true

theorem IsRemark.endsToken (h : IsRemark rest) : Stops (fun c => !Text.isBlank c) rest := by
  obtain ⟨blanks, text, rfl, hne, hblank⟩ := h
  refine (Stops.of_forall fun c hc => ?_).append_left hne
  rw [hblank c hc]
  rfl

/-- A timestamp does not start with the hash, nor with a blank that is no gap. -/
theorem IsRemark.takeWhile_token_skipGap (h : IsRemark rest) :
    (token (skipGap rest)).takeWhile (· ≠ '#') = [] := by
  obtain ⟨blanks, text, rfl, -, hblank⟩ := h
  have hskip : skipGap (blanks ++ '#' :: text) = skipGap blanks ++ '#' :: text :=
    Stops.dropWhile_append_right ((Stops.of_dropWhile _ _).append (.cons (by decide) _))
  rw [hskip]
  cases hleft : skipGap blanks with
  | nil =>
    rw [List.nil_append, token, List.takeWhile_cons_of_pos (by decide)]
    exact List.takeWhile_cons_of_neg (by decide)
  | cons b bs =>
    have hmem : b ∈ skipGap blanks := by
      rw [hleft]
      exact List.mem_cons_self
    have hb := hblank b ((List.dropWhile_sublist _).subset hmem)
    rw [List.cons_append, token, List.takeWhile_cons_of_neg (by rw [hb]; decide)]
    rfl

/-! ### Values and timestamps -/

/-- What stands where the value is expected. -/
def valueToken (cs : List Char) : List Char := token (skipGap cs)

/-- What stands behind the value, up to a blank or a hash. -/
def stampToken (cs : List Char) : List Char :=
  (token (skipGap ((skipGap cs).drop (valueToken cs).length))).takeWhile (· ≠ '#')

theorem token_append_remark (h : IsRemark rest) (cs : List Char) : token (cs ++ rest) = token cs :=
  ((Stops.of_dropWhile _ cs).append h.endsToken).takeWhile_append_right

theorem skipGap_ne_nil (hne : valueToken cs ≠ []) : skipGap cs ≠ [] :=
  fun hnil => hne (by rw [valueToken, hnil]; rfl)

theorem valueToken_append (h : IsRemark rest) (hne : valueToken cs ≠ []) :
    valueToken (cs ++ rest) = valueToken cs := by
  rw [valueToken, skipGap_append_of_ne_nil (skipGap_ne_nil hne), token_append_remark h,
    ← valueToken]

theorem stampToken_append (h : IsRemark rest) (hne : valueToken cs ≠ []) :
    stampToken (cs ++ rest) = stampToken cs := by
  have hdrop : (skipGap cs ++ rest).drop (valueToken cs).length
      = (skipGap cs).drop (valueToken cs).length ++ rest :=
    List.drop_append_of_le_length (List.takeWhile_sublist _).length_le
  rw [stampToken, stampToken, valueToken_append h hne,
    skipGap_append_of_ne_nil (skipGap_ne_nil hne), hdrop]
  generalize (skipGap cs).drop (valueToken cs).length = after
  by_cases hafter : skipGap after = []
  · have hskip : skipGap (after ++ rest) = skipGap rest :=
      List.dropWhile_append.trans (if_pos (List.isEmpty_iff.mpr hafter))
    rw [hskip, hafter, h.takeWhile_token_skipGap]
    rfl
  · rw [skipGap_append_of_ne_nil hafter, token_append_remark h]

/-! ### Samples -/

theorem readSample_eq_ok_iff : readSample format cs = .ok s ↔
    cs.takeWhile isNameChar ≠ [] ∧
      ∃ labels r, readBlock (cs.dropWhile isNameChar) = .ok (labels, r) ∧
        ∃ value, readValue (valueToken r) = .ok value ∧
          ∃ stamp, readTimestamp format (stampToken r) = .ok stamp ∧
            ⟨String.ofList (cs.takeWhile isNameChar), labels, value, stamp⟩ = s := by
  unfold readSample
  dsimp only
  split
  · next hnil =>
    refine iff_of_false (fun h => ?_) fun h => h.1 (List.isEmpty_iff.mp hnil)
    split at h <;> cases h
  · next hne =>
    rw [and_iff_right fun h => hne (List.isEmpty_iff.mpr h)]
    unfold valueToken stampToken valueToken
    generalize cs.dropWhile isNameChar = block
    split
    · simp only [bind_eq_ok_iff, pure, Except.pure, Except.ok.injEq, Prod.exists, readBlock]
    · next hbrace =>
      rw [readBlock_of_ne hbrace]
      simp only [bind_eq_ok_iff, pure, Except.pure, Except.ok.injEq, Prod.exists]

theorem readSample_append (h : readSample format cs = .ok s) (hrest : IsRemark rest) :
    readSample format (cs ++ rest) = .ok s := by
  obtain ⟨hname, labels, r, hblock, value, hvalue, stamp, hstamp, rfl⟩ :=
    readSample_eq_ok_iff.mp h
  have hne : valueToken r ≠ [] := by
    intro hnil
    rw [hnil] at hvalue
    revert hvalue
    cbv
    intro hvalue
    cases hvalue
  have hdrop : cs.dropWhile isNameChar ≠ [] := by
    intro hnil
    rw [hnil] at hblock
    cases hblock
    exact hne rfl
  have hstops : Stops isNameChar (cs.dropWhile isNameChar ++ rest) :=
    (Stops.of_dropWhile _ cs).append_left hdrop
  refine readSample_eq_ok_iff.mpr ?_
  rw [hstops.takeWhile_append_right, hstops.dropWhile_append_right]
  refine ⟨hname, labels, r ++ rest, readBlock_append hblock hdrop rest, value, ?_, stamp, ?_, rfl⟩
  · rw [valueToken_append hrest hne, hvalue]
  · rw [stampToken_append hrest hne, hstamp]

/-! ### Lines -/

/-- The blanks at the end of the line are no longer at its end. -/
theorem trim_append_remark (h : Text.trim cs ≠ []) (text : List Char) :
    ∃ rest, Text.trim (cs ++ ' ' :: '#' :: text) = Text.trim cs ++ rest ∧ IsRemark rest := by
  have hdrop : cs.dropWhile Text.isBlank ≠ [] := fun hnil => h (by rw [Text.trim, hnil]; rfl)
  have hstart : (cs ++ ' ' :: '#' :: text).dropWhile Text.isBlank
      = cs.dropWhile Text.isBlank ++ [' '] ++ '#' :: text := by
    rw [Stops.dropWhile_append_of_ne_nil hdrop, List.append_assoc]
    rfl
  obtain ⟨blanks, hblanks, hblank⟩ :=
    Text.exists_dropEnd_append Text.isBlank (cs.dropWhile Text.isBlank)
  obtain ⟨left, hleft⟩ := Text.exists_trimEnd_cons (c := '#') (by decide) text
  have hend : Text.trimEnd ('#' :: text) ≠ [] := by
    rw [hleft]
    exact List.cons_ne_nil _ _
  have htrim := Text.dropEnd_append_of_ne_nil hend (cs.dropWhile Text.isBlank ++ [' '])
  refine ⟨blanks ++ [' '] ++ '#' :: left, ?_, blanks ++ [' '], left, rfl, by simp, ?_⟩
  · rw [Text.trim, hstart, Text.trimEnd, htrim, ← Text.trimEnd, hleft, Text.trim, Text.trimEnd,
      ← List.append_assoc, ← List.append_assoc, ← hblanks]
  · rw [List.forall_mem_append, List.forall_mem_singleton]
    exact ⟨hblank, by decide⟩

/-- A hash after a blank ends what is read of a line that is a sample. -/
theorem read_append_remark {line : String} {x : Scrape} (hline : '\n' ∉ line.toList)
    (hread : read format line = .ok x) (hx : x.samples ≠ []) {remark : String}
    (hremark : '\n' ∉ remark.toList) : read format (line ++ " #" ++ remark) = .ok x := by
  have hlist : (line ++ " #" ++ remark).toList = line.toList ++ ' ' :: '#' :: remark.toList := by
    rw [String.toList_append, String.toList_append, List.append_assoc]
    rfl
  have hlonger : '\n' ∉ (line ++ " #" ++ remark).toList := by
    rw [hlist]
    simp [hline, hremark]
  obtain ⟨hhash, s, hs, rfl⟩ := (read_eq_ok_iff_of_line hline hx).mp hread
  have hne : Text.trim line.toList ≠ [] := by
    intro hnil
    rw [hnil] at hs
    cases hs
  obtain ⟨rest, htrim, hrest⟩ := trim_append_remark hne remark.toList
  rw [read_eq_ok_iff_of_line hlonger hx, hlist, htrim, List.head?_append_of_ne_nil _ hne]
  exact ⟨hhash, s, readSample_append hs hrest, rfl⟩

/-- The line has a hash in a label, a timestamp and a remark already. -/
theorem read_append_remark_hashes :
    read .text "a\x7bb=\"#\"\x7d 1 7\t#c" = .ok ⟨[], [⟨"a", [("b", "#")], .one, some 7⟩]⟩ ∧
      read .text ("a\x7bb=\"#\"\x7d 1 7\t#c" ++ " #" ++ " 8 \x7d# ")
        = .ok ⟨[], [⟨"a", [("b", "#")], .one, some 7⟩]⟩ := by
  have hread : read .text "a\x7bb=\"#\"\x7d 1 7\t#c"
      = .ok ⟨[], [⟨"a", [("b", "#")], .one, some 7⟩]⟩ := by cbv
  exact ⟨hread, read_append_remark (by decide) hread (by decide) (by decide)⟩

end RemoteWrite.Scrape
