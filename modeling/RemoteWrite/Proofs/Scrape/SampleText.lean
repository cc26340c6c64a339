import Mathlib.Data.List.TakeWhile
import RemoteWrite.Proofs.Scrape.Gap
import RemoteWrite.Proofs.Scrape.Lines
import RemoteWrite.Proofs.Scrape.Quoted
import RemoteWrite.Proofs.Text.Number

/-!
# Samples written out

`SampleText` is a sample in any of the ways in which a line of the text format may write it: with
gaps between the parts of a label, a comma after the last label or none, and any spelling of value
and timestamp. `SampleText.read_text`: such a line is read as that sample and nothing else, whatever
characters the label values hold.
-/

namespace RemoteWrite.Scrape

open Text (Stops)

variable {c : Char} {rest : List Char}

/-! ### Labels -/

/-- A label with gaps around its parts. -/
structure LabelText where
  name : List Char
  value : String
  beforeName : Gap
  afterName : Gap
  beforeValue : Gap
  afterValue : Gap
  name_ne_nil : name ≠ []
  isLabelNameChar : ∀ c ∈ name, Scrape.isLabelNameChar c = true

namespace LabelText

variable (l : LabelText) (ls : List LabelText) (trailing : Option Gap) {room : Nat}
  {labels : LabelList}

def label : String × String := (String.ofList l.name, l.value)

/-- The label from its name on. -/
def item : List Char :=
  l.name ++ l.afterName.chars ++ ['='] ++ l.beforeValue.chars ++ quoted l.value.toList
    ++ l.afterValue.chars

def text : List Char := l.beforeName.chars ++ l.item

theorem item_append (rest : List Char) :
    l.item ++ rest = l.name ++ (l.afterName.chars ++ '=' :: (l.beforeValue.chars
      ++ (quoted l.value.toList ++ (l.afterValue.chars ++ rest)))) := by
  simp only [item, List.append_assoc, List.cons_append, List.nil_append]

theorem stops_item {p : Char → Bool} (hp : ∀ c, Scrape.isLabelNameChar c = true → p c = false) :
    Stops p (l.item ++ rest) := by
  rw [item_append]
  exact (Stops.of_forall fun c hc => hp c (l.isLabelNameChar c hc)).append_left l.name_ne_nil

theorem readLabel_item (h : Stops isGap rest) :
    readLabel (l.item ++ rest) = .ok (l.label, rest) := by
  have hname : Stops Scrape.isLabelNameChar (l.afterName.chars ++ '=' :: (l.beforeValue.chars
      ++ (quoted l.value.toList ++ (l.afterValue.chars ++ rest)))) :=
    l.afterName.stops (fun _ => not_isLabelNameChar_of_isGap) (.cons (by decide) _)
  have hquote : Stops isGap (quoted l.value.toList ++ (l.afterValue.chars ++ rest)) :=
    .cons (by decide) _
  have hne : ¬ l.name.isEmpty = true := fun hnil => l.name_ne_nil (List.isEmpty_iff.mp hnil)
  rw [item_append, readLabel, hname.takeWhile_append l.isLabelNameChar,
    hname.dropWhile_append l.isLabelNameChar, l.afterName.skipGap_append (.cons (by decide) _)]
  dsimp only
  rw [if_neg hne]
  simp only [expect, if_true, bind, Except.bind, pure, Except.pure,
    l.beforeValue.skipGap_append hquote, readQuoted_append, l.afterValue.skipGap_append h,
    String.ofList_toList]
  rfl

theorem skipGap_text (rest : List Char) : skipGap (l.text ++ rest) = l.item ++ rest := by
  rw [text, List.append_assoc]
  exact l.beforeName.skipGap_append (l.stops_item fun _ => not_isGap_of_isLabelNameChar)

theorem item_ne_brace (rest cs : List Char) : l.item ++ rest ≠ '}' :: cs := by
  have hname : Stops (fun c => !Scrape.isLabelNameChar c) (l.item ++ rest) :=
    l.stops_item fun c hc => by rw [hc]; rfl
  exact hname.ne_cons (by decide) cs

/-! What follows a label is the closing brace, or a comma and more labels or the closing brace. -/

theorem readLabels_brace (g : Gap) (rest : List Char) :
    readLabels (room + 1) (g.chars ++ '}' :: rest) = .ok ([], rest) := by
  rw [readLabels, g.skipGap_append (.cons (by decide) _)]
  rfl

theorem readLabels_text_brace (rest : List Char) :
    readLabels (room + 1) (l.text ++ '}' :: rest) = .ok ([l.label], rest) := by
  rw [readLabels, l.skipGap_text]
  split
  · next heq => exact absurd heq (l.item_ne_brace _ _)
  · rw [l.readLabel_item (.cons (by decide) _)]
    rfl

theorem readLabels_text_comma {cs : List Char} (h : readLabels room cs = .ok (labels, rest)) :
    readLabels (room + 1) (l.text ++ ',' :: cs) = .ok (l.label :: labels, rest) := by
  rw [readLabels, l.skipGap_text]
  split
  · next heq => exact absurd heq (l.item_ne_brace _ _)
  · rw [l.readLabel_item (.cons (by decide) _)]
    simp only [bind, Except.bind, h]
    rfl

/-- A comma after the last label or none, and the closing brace. -/
def closing : List Char := trailing.elim [] (fun g => ',' :: g.chars) ++ ['}']

/-- What follows the opening brace, with commas between the labels. -/
def blockRest : List Char := [','].intercalate (ls.map text) ++ closing trailing

theorem readLabels_text_closing (rest : List Char) :
    readLabels (room + 2) (l.text ++ (closing trailing ++ rest)) = .ok ([l.label], rest) := by
  cases trailing with
  | none => exact l.readLabels_text_brace rest
  | some g =>
    have hclosing : closing (some g) ++ rest = ',' :: (g.chars ++ '}' :: rest) := by
      simp only [closing, Option.elim_some, List.append_assoc, List.cons_append, List.nil_append]
    rw [hclosing]
    exact l.readLabels_text_comma (readLabels_brace g rest)

theorem blockRest_singleton : blockRest [l] trailing = l.text ++ closing trailing := by
  rw [blockRest, List.map_singleton, List.intercalate_singleton]

theorem blockRest_cons_cons (next : LabelText) :
    blockRest (l :: next :: ls) trailing = l.text ++ ',' :: blockRest (next :: ls) trailing := by
  simp only [blockRest, List.map_cons, List.intercalate_cons_cons, List.append_assoc,
    List.cons_append, List.nil_append]

theorem readLabels_blockRest {ls : List LabelText} (hne : ls ≠ []) (hroom : ls.length < room)
    (rest : List Char) :
    readLabels room (blockRest ls trailing ++ rest) = .ok (ls.map label, rest) := by
  induction ls generalizing room with
  | nil => exact absurd rfl hne
  | cons l ls ih =>
    rw [List.length_cons] at hroom
    cases ls with
    | nil =>
      obtain ⟨room, rfl⟩ := Nat.exists_eq_add_of_le' hroom
      rw [blockRest_singleton, List.append_assoc]
      exact l.readLabels_text_closing trailing rest
    | cons next ls =>
      obtain ⟨room, rfl⟩ := Nat.exists_eq_add_of_lt hroom
      rw [blockRest_cons_cons, List.append_assoc, List.cons_append]
      exact l.readLabels_text_comma (ih (List.cons_ne_nil _ _) (by omega))

theorem length_le_blockRest : ls.length ≤ (blockRest ls trailing).length := by
  induction ls with
  | nil => exact Nat.zero_le _
  | cons l ls ih =>
    cases ls with
    | nil =>
      have hpos : 0 < (closing trailing).length := by
        rw [closing, List.length_append]
        exact Nat.lt_add_left _ Nat.zero_lt_one
      rw [blockRest_singleton, List.length_append]
      exact Nat.le_add_left_of_le hpos
    | cons next ls =>
      rw [blockRest_cons_cons, List.length_append, List.length_cons]
      exact Nat.le_add_left_of_le (Nat.succ_le_succ ih)

theorem newline_notMem_text : '\n' ∉ l.text := by
  have hname := newline_notMem_of_not_isBlank fun c hc =>
    not_isBlank_of_isNameChar (isNameChar_of_isLabelNameChar (l.isLabelNameChar c hc))
  simp [text, item, hname, Gap.newline_notMem, newline_notMem_quoted]

theorem newline_notMem_closing : '\n' ∉ closing trailing := by
  cases trailing with
  | none => decide
  | some g => simp [closing, g.newline_notMem]

theorem newline_notMem_blockRest : '\n' ∉ blockRest ls trailing := by
  induction ls with
  | nil => exact newline_notMem_closing trailing
  | cons l ls ih =>
    cases ls with
    | nil =>
      rw [blockRest_singleton, List.mem_append, not_or]
      exact ⟨l.newline_notMem_text, newline_notMem_closing trailing⟩
    | cons next ls =>
      rw [blockRest_cons_cons, List.mem_append, not_or]
      exact ⟨l.newline_notMem_text, List.not_mem_cons_of_ne_of_not_mem (by decide) ih⟩

end LabelText

/-! ### Samples -/

/-- A timestamp with a gap before it. -/
structure StampText where
  gap : Gap
  gap_ne_nil : gap.chars ≠ []
  stamp : Int64
  token : List Char
  decimal : Text.Decimal stamp token

/-- A sample in the text format; the labels stand in braces if there are any. -/
structure SampleText where
  name : List Char
  name_ne_nil : name ≠ []
  isNameChar : ∀ c ∈ name, Scrape.isNameChar c = true
  labels : List LabelText
  trailing : Option Gap
  gap : Gap
  gap_ne_nil : gap.chars ≠ []
  value : Binary64
  token : List Char
  isBlank : ∀ c ∈ token, Text.isBlank c = false
  reads : readValue token = .ok value
  stamp : Option StampText

namespace StampText

variable (t : StampText)

def text : List Char := t.gap.chars ++ t.token

theorem readTimestamp_text :
    readTimestamp .text ((Scrape.token (skipGap t.text)).takeWhile (· ≠ '#')) = .ok t.stamp := by
  have hstops : Stops isGap t.token :=
    .of_forall fun c hc => not_isGap_of_not_isBlank (t.decimal.isBlank c hc)
  have htoken : Scrape.token t.token = t.token := by
    have := token_append t.decimal.isBlank .nil
    rwa [List.append_nil] at this
  have hhash : t.token.takeWhile (· ≠ '#') = t.token :=
    List.takeWhile_eq_self_iff.mpr fun c hc => by
      rcases t.decimal.mem_cases hc with hdigit | rfl | rfl
      · exact decide_eq_true fun heq => by rw [heq] at hdigit; revert hdigit; decide
      · decide
      · decide
  have hne : ¬ t.token.isEmpty = true := fun hnil => t.decimal.ne_nil (List.isEmpty_iff.mp hnil)
  rw [text, t.gap.skipGap_append hstops, htoken, hhash, readTimestamp, if_neg hne, readTimestamp?,
    t.decimal.readInt64?]

theorem newline_notMem : '\n' ∉ t.text := by
  rw [text, List.mem_append, not_or]
  exact ⟨t.gap.newline_notMem, newline_notMem_of_not_isBlank t.decimal.isBlank⟩

end StampText

namespace SampleText

variable (t : SampleText)

def block : List Char :=
  if t.labels.isEmpty then [] else '{' :: LabelText.blockRest t.labels t.trailing

def stampText : List Char := t.stamp.elim [] StampText.text

/-- What follows the labels. -/
def tail : List Char := t.gap.chars ++ t.token ++ t.stampText

def text : List Char := t.name ++ t.block ++ t.tail

def sample : Sample :=
  ⟨String.ofList t.name, t.labels.map LabelText.label, t.value, t.stamp.map (·.stamp)⟩

theorem token_ne_nil : t.token ≠ [] := by
  intro hnil
  have hread := t.reads
  have hfault : readValue [] = .error (.value "") := by cbv
  rw [hnil, hfault] at hread
  cases hread

theorem skipGap_tail : skipGap t.tail = t.token ++ t.stampText := by
  rw [tail, List.append_assoc]
  refine t.gap.skipGap_append (Stops.append_left ?_ t.token_ne_nil)
  exact .of_forall fun c hc => not_isGap_of_not_isBlank (t.isBlank c hc)

theorem token_tail : Scrape.token (t.token ++ t.stampText) = t.token := by
  refine token_append t.isBlank ?_
  unfold stampText
  cases t.stamp with
  | none => exact .nil
  | some stamp => exact stamp.gap.stops_of_ne_nil endsToken_of_isGap stamp.gap_ne_nil

theorem readTimestamp_stampText :
    readTimestamp .text ((Scrape.token (skipGap t.stampText)).takeWhile (· ≠ '#'))
      = .ok (t.stamp.map (·.stamp)) := by
  unfold stampText
  cases t.stamp with
  | none => rfl
  | some stamp => exact stamp.readTimestamp_text

theorem stops_tail {p : Char → Bool} (hp : ∀ c, isGap c = true → p c = false) :
    Stops p t.tail := by
  rw [tail, List.append_assoc]
  exact t.gap.stops_of_ne_nil hp t.gap_ne_nil

theorem stops_block : Stops Scrape.isNameChar (t.block ++ t.tail) := by
  rw [block]
  split
  · exact t.stops_tail fun _ => not_isNameChar_of_isGap
  · exact .cons (by decide) _

theorem readSample_text : readSample .text t.text = .ok t.sample := by
  have hne : ¬ t.name.isEmpty = true := fun hnil => t.name_ne_nil (List.isEmpty_iff.mp hnil)
  rw [text, List.append_assoc, readSample, t.stops_block.takeWhile_append t.isNameChar,
    t.stops_block.dropWhile_append t.isNameChar]
  dsimp only
  rw [if_neg hne, sample]
  by_cases hlabels : t.labels = []
  · rw [block, hlabels, List.isEmpty_nil, if_pos rfl, List.nil_append]
    split
    · next heq =>
      have hgap := t.stops_tail (p := fun c => !isGap c) fun _ h => by rw [h]; rfl
      exact absurd heq (hgap.ne_cons (by decide) _)
    · simp only [bind, Except.bind, pure, Except.pure, skipGap_tail, token_tail, t.reads,
        List.drop_left, t.readTimestamp_stampText, List.map_nil]
  · have hroom : t.labels.length
        < (LabelText.blockRest t.labels t.trailing ++ t.tail).length + 1 := by
      have := LabelText.length_le_blockRest t.labels t.trailing
      rw [List.length_append]
      omega
    have hread := LabelText.readLabels_blockRest t.trailing hlabels hroom t.tail
    rw [block, if_neg (by simpa using hlabels), List.cons_append]
    simp only [bind, Except.bind, pure, Except.pure, hread, skipGap_tail, token_tail, t.reads,
      List.drop_left, t.readTimestamp_stampText]

/-! A sample is one line without blanks around it. -/

theorem newline_notMem : '\n' ∉ t.text := by
  have hname := newline_notMem_of_not_isBlank fun c hc => not_isBlank_of_isNameChar (t.isNameChar c hc)
  have htoken := newline_notMem_of_not_isBlank t.isBlank
  have hblock : '\n' ∉ t.block := by
    rw [block]
    split
    · exact List.not_mem_nil
    · exact List.not_mem_cons_of_ne_of_not_mem (by decide)
        (LabelText.newline_notMem_blockRest t.labels t.trailing)
  have hstamp : '\n' ∉ t.stampText := by
    unfold stampText
    cases t.stamp with
    | none => exact List.not_mem_nil
    | some stamp => exact stamp.newline_notMem
  simp only [text, tail, List.mem_append, not_or]
  exact ⟨⟨hname, hblock⟩, ⟨t.gap.newline_notMem, htoken⟩, hstamp⟩

theorem stops_text {p : Char → Bool} (hp : ∀ c, Scrape.isNameChar c = true → p c = false) :
    Stops p t.text := by
  rw [text, List.append_assoc]
  exact (Stops.of_forall fun c hc => hp c (t.isNameChar c hc)).append_left t.name_ne_nil

theorem trim_text : Text.trim t.text = t.text := by
  obtain ⟨init, last, htext, hne, hlast⟩ : ∃ init last, t.text = init ++ last ∧ last ≠ [] ∧
      ∀ c ∈ last, Text.isBlank c = false := by
    rw [text, tail, stampText]
    cases t.stamp with
    | none =>
      refine ⟨t.name ++ t.block ++ t.gap.chars, t.token, ?_, t.token_ne_nil, t.isBlank⟩
      simp only [Option.elim_none, List.append_nil, List.append_assoc]
    | some stamp =>
      refine ⟨t.name ++ t.block ++ t.gap.chars ++ t.token ++ stamp.gap.chars, stamp.token, ?_,
        stamp.decimal.ne_nil, stamp.decimal.isBlank⟩
      simp only [Option.elim_some, StampText.text, List.append_assoc]
  refine Text.trim_of_stops (t.stops_text fun _ => not_isBlank_of_isNameChar) ?_
  rw [htext, List.reverse_append]
  refine Stops.append_left (.of_forall fun c hc => hlast c (List.mem_reverse.mp hc)) ?_
  exact fun hnil => hne (List.reverse_eq_nil_iff.mp hnil)

/-- What is written of a sample is read as that sample alone. -/
theorem read_text : Scrape.read .text (String.ofList t.text) = .ok ⟨[], [t.sample]⟩ := by
  have hlines : lines t.text = [t.text] := List.splitOn_eq_singleton t.newline_notMem
  have hhash : t.text.head? ≠ some '#' := fun h =>
    absurd (t.stops_text (p := fun c => !Scrape.isNameChar c) (fun _ h => by rw [h]; rfl) _ h)
      (by decide)
  have hne : ¬ t.text.isEmpty = true := by
    rw [List.isEmpty_iff, text, List.append_assoc]
    exact List.append_ne_nil_of_left_ne_nil t.name_ne_nil _
  have hmarker : t.text ≠ endMarker := fun h => hhash (by rw [h]; decide)
  rw [Scrape.read, String.toList_ofList, hlines, readLines_cons, t.trim_text, if_neg hne,
    if_neg hmarker, readLine_of_ne_hash hhash, t.readSample_text]
  rfl

/-- A line with an escape, a comma behind its only label and a timestamp before the epoch. -/
theorem read_text_negative : ∃ t : SampleText, t.text = "up\x7ba =\"\\n\",\x7d 1 -7".toList ∧
    Scrape.read .text (String.ofList t.text)
      = .ok ⟨[], [⟨"up", [("a", "\n")], .one, some (-7)⟩]⟩ := by
  let tight : Gap := ⟨[], List.forall_mem_nil _⟩
  let space : Gap := ⟨[' '], List.forall_mem_singleton.mpr rfl⟩
  let label : LabelText :=
    ⟨['a'], "\n", tight, space, tight, tight, by decide, List.forall_mem_singleton.mpr rfl⟩
  let stamp : StampText := ⟨space, by decide, -7, ['-', '7'],
    .minus ⟨by decide, List.forall_mem_singleton.mpr rfl⟩ (by decide)⟩
  let line : SampleText := ⟨['u', 'p'], by decide, List.all_eq_true.mp (by decide), [label],
    some tight, space, by decide, .one, ['1'], List.forall_mem_singleton.mpr rfl, rfl, some stamp⟩
  exact ⟨line, by decide, line.read_text⟩

end SampleText

end RemoteWrite.Scrape
