import RemoteWrite.Proofs.Text.Blank
import RemoteWrite.Scrape

/-!
# Terminating a scrape text

`Scrape.terminate_transparent`: the marker and the newline that a page adds to its text change
nothing of what is read, in whichever format the page is served and in whichever it is read, errors
and their line numbers included. Reading looks at trimmed lines, passes over empty ones and ends at a
marker; so a text that is terminated again stays as it is, and no text gets more than one marker.
-/

namespace RemoteWrite.Scrape

variable {format : ScrapeFormat} {c : Char} {x : Scrape} {n : Nat}

/-! ### Lines -/

theorem lines_append_newline (cs more : List Char) :
    lines (cs ++ '\n' :: more) = lines cs ++ lines more := by
  rw [lines, List.splitOn_append_cons_self]
  rfl

theorem lines_concat (h : c ≠ '\n') (cs : List Char) :
    ∃ init last, lines cs = init ++ [last] ∧ lines (cs ++ [c]) = init ++ [last ++ [c]] := by
  induction cs with
  | nil => exact ⟨[], [], rfl, List.splitOn_eq_singleton (by simp [h.symm])⟩
  | cons d cs ih =>
    obtain ⟨init, last, hlines, hconcat⟩ := ih
    rw [lines] at hlines hconcat
    rw [lines, lines, List.cons_append, List.splitOn_cons_eq_if_modifyHead,
      List.splitOn_cons_eq_if_modifyHead, hlines, hconcat]
    split
    · exact ⟨[] :: init, last, rfl, rfl⟩
    · cases init with
      | nil => exact ⟨[], d :: last, rfl, rfl⟩
      | cons line init => exact ⟨(d :: line) :: init, last, rfl, rfl⟩

/-- What sees neither an empty last line nor blanks at the end of the last line does not see blanks
at the end of a text. -/
theorem eq_lines_trimEnd {β : Type} {f : List (List Char) → β} (hempty : ∀ ls, f (ls ++ [[]]) = f ls)
    (htrim : ∀ ls a b, Text.trim a = Text.trim b → f (ls ++ [a]) = f (ls ++ [b])) (cs : List Char) :
    f (lines (Text.trimEnd cs)) = f (lines cs) := by
  have happend : ∀ blanks, (∀ c ∈ blanks, Text.isBlank c = true) → ∀ cs,
      f (lines (cs ++ blanks)) = f (lines cs) := by
    intro blanks hblanks
    induction blanks with
    | nil => exact fun cs => by rw [List.append_nil]
    | cons c blanks ih =>
      intro cs
      rw [List.forall_mem_cons] at hblanks
      rw [List.append_cons, ih hblanks.2]
      by_cases hc : c = '\n'
      · rw [hc, lines_append_newline]
        exact hempty _
      · obtain ⟨init, last, hlines, hconcat⟩ := lines_concat hc cs
        rw [hlines, hconcat]
        exact htrim init _ _ (Text.trim_concat hblanks.1 last)
  obtain ⟨blanks, hcs, hblanks⟩ := Text.exists_dropEnd_append Text.isBlank cs
  exact (happend blanks hblanks _).symm.trans (congrArg (fun cs => f (lines cs)) hcs.symm)

/-! ### Reading -/

theorem readLines_cons (line : List Char) (rest : List (List Char)) :
    readLines format n (line :: rest) x =
      if (Text.trim line).isEmpty then readLines format (n + 1) rest x
      else if Text.trim line = endMarker then .ok x
      else match readLine format (Text.trim line) with
        | .error fault => .error (.line n fault)
        | .ok item => readLines format (n + 1) rest (x.add item) := rfl

/-- What comes after some lines matters by what reading it makes of any state. -/
theorem readLines_append_congr {a b : List (List Char)} (ls : List (List Char))
    (h : ∀ n x, readLines format n a x = readLines format n b x) :
    readLines format n (ls ++ a) x = readLines format n (ls ++ b) x := by
  induction ls generalizing n x with
  | nil => exact h n x
  | cons line ls ih => simp only [List.cons_append, readLines_cons, ih]

/-- A last line that is empty or the marker says nothing. -/
theorem readLines_concat {line : List Char} (h : Text.trim line = [] ∨ Text.trim line = endMarker)
    (ls : List (List Char)) :
    readLines format n (ls ++ [line]) x = readLines format n ls x := by
  have hlast : ∀ n x, readLines format n [line] x = readLines format n [] x := by
    intro n x
    rw [readLines_cons]
    rcases h with h | h
    · rw [h]; rfl
    · rw [h, if_neg (by decide), if_pos rfl]; rfl
  rw [readLines_append_congr ls hlast, List.append_nil]

/-- The marker on a line of its own. -/
def withMarker (body : List Char) : List Char :=
  body ++ (if body.isEmpty then [] else ['\n']) ++ endMarker

/-- The lines before the marker; an empty text has one line, and it becomes that of the marker. -/
theorem lines_withMarker (body : List Char) :
    lines (withMarker body) = (if body.isEmpty then [] else lines body) ++ [endMarker] := by
  have hmarker : lines endMarker = [endMarker] := by decide
  cases body with
  | nil => exact hmarker
  | cons c cs =>
    rw [withMarker, List.isEmpty_cons, if_neg Bool.false_ne_true, if_neg Bool.false_ne_true,
      List.append_assoc, List.singleton_append, lines_append_newline, hmarker]

theorem trim_endMarker : Text.trim endMarker = endMarker := by decide

theorem readLines_withMarker (body : List Char) :
    readLines format n (lines (withMarker body)) x = readLines format n (lines body) x := by
  rw [lines_withMarker, readLines_concat (.inr trim_endMarker)]
  cases body with
  | nil => exact (readLines_concat (.inl rfl) []).symm
  | cons c cs => rfl

/-- Nothing is read after a marker. -/
theorem readLines_append_marker (ls later : List (List Char)) :
    readLines format n (ls ++ endMarker :: later) x = readLines format n ls x := by
  have hmarker : ∀ n x, readLines format n (endMarker :: later) x = readLines format n [] x := by
    intro n x
    rw [readLines_cons, trim_endMarker, if_neg (by decide), if_pos rfl]
    rfl
  rw [readLines_append_congr ls hmarker, List.append_nil]

/-! ### Terminated texts -/

/-- What stands before the newline at the end. -/
def closed (format : ScrapeFormat) (body : List Char) : List Char :=
  if format.requiresEnd && !isTerminated body then withMarker body else body

theorem terminate_eq (format : ScrapeFormat) (text : String) :
    terminate format text = .ofList (closed format (Text.trimEnd text.toList) ++ ['\n']) := by
  have hbody : ∀ body, body ++ (if format.requiresEnd && !isTerminated body then
      (if body.isEmpty then [] else ['\n']) ++ endMarker else []) = closed format body := by
    intro body
    unfold closed withMarker
    split
    · rw [List.append_assoc]
    · rw [List.append_nil]
  rw [← hbody]
  rfl

theorem isTerminated_withMarker (body : List Char) : isTerminated (withMarker body) = true := by
  rw [isTerminated, lines_withMarker, List.getLast?_concat]
  exact beq_iff_eq.mpr trim_endMarker

theorem isTerminated_closed (h : format.requiresEnd = true) (body : List Char) :
    isTerminated (closed format body) = true := by
  unfold closed
  split
  · exact isTerminated_withMarker body
  · next hdone => simpa [h] using hdone

theorem closed_closed (format : ScrapeFormat) (body : List Char) :
    closed format (closed format body) = closed format body := by
  refine if_neg fun hlacks => ?_
  rw [Bool.and_eq_true, Bool.not_eq_true'] at hlacks
  rw [isTerminated_closed hlacks.1] at hlacks
  exact Bool.noConfusion hlacks.2

/-- No blank stands before the newline. -/
theorem stops_reverse_closed {body : List Char} (h : Text.Stops Text.isBlank body.reverse) :
    Text.Stops Text.isBlank (closed format body).reverse := by
  unfold closed
  split
  · rw [withMarker, List.reverse_append]
    have hmarker : Text.Stops Text.isBlank endMarker.reverse := .cons (by decide) _
    exact hmarker.append_left (by decide)
  · exact h

theorem trimEnd_terminate (format : ScrapeFormat) (text : String) :
    Text.trimEnd (terminate format text).toList = closed format (Text.trimEnd text.toList) := by
  have hnewline : ∀ c ∈ ['\n'], Text.isBlank c = true := List.forall_mem_singleton.mpr (by decide)
  rw [terminate_eq, String.toList_ofList, Text.trimEnd, Text.dropEnd_append hnewline]
  exact Text.dropEnd_of_stops (stops_reverse_closed (Text.stops_reverse_dropEnd _ _))

theorem terminate_terminate (format : ScrapeFormat) (text : String) :
    terminate format (terminate format text) = terminate format text := by
  rw [terminate_eq format (terminate format text), trimEnd_terminate, closed_closed, ← terminate_eq]

theorem readLines_trimEnd (cs : List Char) :
    readLines format n (lines (Text.trimEnd cs)) x = readLines format n (lines cs) x := by
  refine eq_lines_trimEnd (f := fun ls => readLines format n ls x)
    (fun ls => readLines_concat (.inl rfl) ls) (fun ls a b hab => ?_) cs
  refine readLines_append_congr ls fun n x => ?_
  rw [readLines_cons, readLines_cons, hab]

theorem read_terminate (served format : ScrapeFormat) (text : String) :
    read format (terminate served text) = read format text := by
  rw [read, read, ← readLines_trimEnd, trimEnd_terminate, ← readLines_trimEnd text.toList, closed]
  split
  · exact readLines_withMarker _
  · rfl

/-! ### Markers -/

/-- How many lines of a text are markers. -/
def numMarkers (cs : List Char) : Nat := (lines cs).countP fun line => Text.trim line = endMarker

theorem numMarkers_trimEnd (cs : List Char) : numMarkers (Text.trimEnd cs) = numMarkers cs := by
  refine eq_lines_trimEnd (f := List.countP fun line => Text.trim line = endMarker)
    (fun ls => ?_) (fun ls a b hab => ?_) cs
  · rw [List.countP_append]
    rfl
  · rw [List.countP_append, List.countP_append, List.countP_singleton, List.countP_singleton, hab]

theorem numMarkers_withMarker (body : List Char) :
    numMarkers (withMarker body) = numMarkers body + 1 := by
  have hmarker : [endMarker].countP (fun line => Text.trim line = endMarker) = 1 := by decide
  rw [numMarkers, lines_withMarker, List.countP_append, hmarker, numMarkers]
  cases body with
  | nil => rfl
  | cons c cs => rfl

theorem numMarkers_terminate (format : ScrapeFormat) (text : String) :
    numMarkers (terminate format text).toList = numMarkers text.toList +
      if format.requiresEnd && !isTerminated (Text.trimEnd text.toList) then 1 else 0 := by
  rw [← numMarkers_trimEnd, trimEnd_terminate, ← numMarkers_trimEnd text.toList, closed]
  split
  · exact numMarkers_withMarker _
  · rfl

/-- The last line of an OpenMetrics text that is terminated. -/
theorem lines_terminate_openMetrics (text : String) :
    ∃ init line, lines (terminate .openMetrics text).toList = init ++ [line, []] ∧
      Text.trim line = endMarker := by
  have hterminated : isTerminated (closed .openMetrics (Text.trimEnd text.toList)) = true :=
    isTerminated_closed rfl _
  rw [terminate_eq, String.toList_ofList, lines_append_newline]
  unfold isTerminated at hterminated
  split at hterminated
  · next line hlast =>
    obtain ⟨init, hinit⟩ := List.getLast?_eq_some_iff.mp hlast
    refine ⟨init, line, ?_, beq_iff_eq.mp hterminated⟩
    rw [hinit, List.append_assoc]
    rfl
  · cases hterminated

/-- To terminate a text is to do so once and for all: it changes nothing of what is read, and the
text gets one marker at most, namely the one that it lacks. What comes after a marker is not read. -/
theorem terminate_transparent (served format : ScrapeFormat) (text later : String) :
    terminate served (terminate served text) = terminate served text ∧
      read format (terminate served text) = read format text ∧
      (∃ init line, lines (terminate .openMetrics text).toList = init ++ [line, []] ∧
        Text.trim line = endMarker) ∧
      numMarkers (terminate served text).toList = numMarkers text.toList +
        (if served.requiresEnd && !isTerminated (Text.trimEnd text.toList) then 1 else 0) ∧
      read format (text ++ "\n# EOF\n" ++ later) = read format text := by
  refine ⟨terminate_terminate served text, read_terminate served format text,
    lines_terminate_openMetrics text, numMarkers_terminate served text, ?_⟩
  have hmarker : ("\n# EOF\n").toList = '\n' :: (endMarker ++ ['\n']) := by decide
  have hlines : lines (text ++ "\n# EOF\n" ++ later).toList
      = lines text.toList ++ endMarker :: lines later.toList := by
    have hafter : lines (endMarker ++ '\n' :: later.toList) = endMarker :: lines later.toList := by
      rw [lines_append_newline]
      rfl
    rw [String.toList_append, String.toList_append, hmarker, List.append_assoc, List.cons_append,
      lines_append_newline, List.append_assoc, List.singleton_append, hafter]
  rw [read, hlines, readLines_append_marker]
  rfl

end RemoteWrite.Scrape
