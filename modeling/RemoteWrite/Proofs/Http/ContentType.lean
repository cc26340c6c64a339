import Mathlib.Logic.Relation
import RemoteWrite.Proofs.Text.LetterCase
import RemoteWrite.Version.Claimed

/-!
# What a content type claims

Of the parameters of a content type only the first one of the name `proto` counts. Others may come
and go behind the media type, and letter case and blanks may change around every part, without a
change of the version that is claimed (`Version.decidedByProto`). What may be done is a step between
the parts of two content types, and what one step keeps is kept by any number of them.
-/

namespace RemoteWrite

/-! ### Separators -/

namespace Text

variable {sep : Char} {cs before part : List Char}

theorem decide_ne_of_notMem (h : sep ∉ cs) : ∀ c ∈ cs, decide (c ≠ sep) = true :=
  fun _ hc => decide_eq_true (ne_of_mem_of_not_mem hc h)

theorem splitOnce?_append_cons (h : sep ∉ before) (after : List Char) :
    splitOnce? sep (before ++ sep :: after) = some (before, after) := by
  have hstops : Stops (· ≠ sep) (sep :: after) := .cons (by simp) after
  have hbefore := decide_ne_of_notMem h
  rw [splitOnce?, hstops.dropWhile_append hbefore, hstops.takeWhile_append hbefore]

theorem splitOnce?_eq_none (h : sep ∉ cs) : splitOnce? sep cs = none := by
  have hdrop : cs.dropWhile (· ≠ sep) = [] := by
    rw [← List.append_nil cs, Stops.nil.dropWhile_append (decide_ne_of_notMem h)]
  rw [splitOnce?, hdrop]

/-- No separator is left in a part. -/
theorem notMem_of_mem_splitOn (h : part ∈ cs.splitOn sep) : sep ∉ part := by
  induction cs generalizing part with
  | nil =>
    rw [List.splitOn_nil, List.mem_singleton] at h
    rw [h]
    exact List.not_mem_nil
  | cons c cs ih =>
    obtain ⟨first, rest, hsplit⟩ := List.exists_cons_of_ne_nil (List.splitOn_ne_nil sep cs)
    rw [List.splitOn_cons_eq_if_modifyHead] at h
    split at h
    · rcases List.mem_cons.mp h with rfl | h
      · exact List.not_mem_nil
      · exact ih h
    · next hc =>
      rw [hsplit] at h ih
      rcases List.mem_cons.mp h with rfl | h
      · rw [List.mem_cons, not_or]
        refine ⟨?_, ih List.mem_cons_self⟩
        rintro rfl
        exact hc (beq_self_eq_true _)
      · exact ih (List.mem_cons_of_mem _ h)

end Text

namespace Version

open Text

variable {name parameter parameter' : List Char} {parameters edited edited' : List (List Char)}
  {version : Version}

/-! ### Parameters -/

/-- The name is `proto`, blanks around it and letter case aside. -/
def IsProto (name : List Char) : Prop := sameIgnoringCase (trim name) "proto".toList = true

instance : Decidable (IsProto name) := inferInstanceAs (Decidable (_ = true))

theorem isProto_iff_of_respelled {name' : List Char} (h : Respelled name name') :
    IsProto name' ↔ IsProto name := by
  rw [IsProto, h.sameIgnoringCase_trim_eq, IsProto]

/-- The parameter has a name, which stands before the first equals sign, and that is `proto`. -/
def NamesProto (parameter : List Char) : Prop :=
  ∃ name value, parameter = name ++ '=' :: value ∧ '=' ∉ name ∧ IsProto name

/-- Without blanks around it the value is the schema, in any number of quotes. -/
def Quotes (value schema : List Char) : Prop :=
  ∃ before after, trim value = before ++ schema ++ after ∧
    (∀ c ∈ before, c = '"') ∧ ∀ c ∈ after, c = '"'

theorem protoParameter?_of_notMem (h : '=' ∉ parameter) : protoParameter? parameter = none := by
  rw [protoParameter?, splitOnce?_eq_none (mt mem_of_mem_trim h)]

theorem protoParameter?_append (h : '=' ∉ name) (value : List Char) :
    protoParameter? (name ++ '=' :: value) = if IsProto name then
      some (String.ofList (dropEnd (· = '"') ((trim value).dropWhile (· = '"')))) else none := by
  have hname : '=' ∉ name.dropWhile isBlank := fun hmem =>
    h ((List.dropWhile_sublist isBlank).mem hmem)
  rw [protoParameter?, trim_append_cons (by decide), splitOnce?_append_cons hname]
  simp only [trim_dropWhile, trim_trimEnd]
  rfl

theorem protoParameter?_eq_none_iff :
    protoParameter? parameter = none ↔ ¬ NamesProto parameter := by
  constructor
  · rintro h ⟨name, value, rfl, hname, hproto⟩
    rw [protoParameter?_append hname, if_pos hproto] at h
    cases h
  · intro h
    by_cases hmem : '=' ∈ parameter
    · obtain ⟨name, value, rfl, hname⟩ := List.eq_append_cons_of_mem hmem
      rw [protoParameter?_append hname, if_neg fun hproto => h ⟨name, value, rfl, hname, hproto⟩]
    · exact protoParameter?_of_notMem hmem

theorem notMem_schema (version : Version) : '"' ∉ version.schema.toList := by
  cases version <;> decide

theorem quotes_schema_iff {value : List Char} : Quotes value version.schema.toList ↔
    dropEnd (· = '"') ((trim value).dropWhile (· = '"')) = version.schema.toList := by
  have hne : version.schema.toList ≠ [] := by cases version <;> decide
  have hschema : ∀ c ∈ version.schema.toList, decide (c = '"') = false := fun c hc =>
    decide_eq_false (ne_of_mem_of_not_mem hc version.notMem_schema)
  rw [dropEnd_dropWhile_eq_iff hne (.of_forall hschema)
    (.of_forall fun c hc => hschema c (List.mem_reverse.mp hc))]
  simp only [Quotes, decide_eq_true_eq]

theorem protoParameter?_eq_schema_iff : protoParameter? parameter = some version.schema ↔
    ∃ name value, parameter = name ++ '=' :: value ∧ '=' ∉ name ∧ IsProto name ∧
      Quotes value version.schema.toList := by
  constructor
  · intro h
    have hproto : NamesProto parameter := by
      by_contra hproto
      rw [protoParameter?_eq_none_iff.mpr hproto] at h
      cases h
    obtain ⟨name, value, rfl, hname, hproto⟩ := hproto
    rw [protoParameter?_append hname, if_pos hproto, Option.some.injEq] at h
    refine ⟨name, value, rfl, hname, hproto, quotes_schema_iff.mpr ?_⟩
    rw [← h, String.toList_ofList]
  · rintro ⟨name, value, rfl, hname, hproto, hvalue⟩
    rw [protoParameter?_append hname, if_pos hproto, quotes_schema_iff.mp hvalue,
      String.ofList_toList]

/-- What stands behind the first parameter `proto` is not looked at. -/
theorem findSome?_append_cons {before : List (List Char)}
    (hbefore : ∀ other ∈ before, ¬ NamesProto other) (h : NamesProto parameter)
    (after : List (List Char)) :
    (before ++ parameter :: after).findSome? protoParameter? = protoParameter? parameter := by
  have hnone : before.findSome? protoParameter? = none :=
    List.findSome?_eq_none_iff.mpr fun other hother =>
      protoParameter?_eq_none_iff.mpr (hbefore other hother)
  obtain ⟨found, hfound⟩ := Option.ne_none_iff_exists'.mp
    (mt protoParameter?_eq_none_iff.mp (not_not_intro h))
  rw [List.findSome?_append, hnone, Option.none_or, List.findSome?_cons, hfound]

/-- One change to a parameter that leaves its name and its value what they are. -/
inductive ParameterEdit : List Char → List Char → Prop where
  | padded {parameter parameter' : List Char} (h : Padded parameter parameter') :
    ParameterEdit parameter parameter'
  | name {name name' : List Char} (hname : '=' ∉ name) (h : Respelled name name')
    (value : List Char) : ParameterEdit (name ++ '=' :: value) (name' ++ '=' :: value)
  | value {name value value' : List Char} (hname : '=' ∉ name) (h : Padded value value') :
    ParameterEdit (name ++ '=' :: value) (name ++ '=' :: value')

theorem ParameterEdit.protoParameter?_eq (h : ParameterEdit parameter parameter') :
    protoParameter? parameter' = protoParameter? parameter := by
  cases h with
  | padded h => rw [protoParameter?, h.trim_eq, protoParameter?]
  | name hname h value =>
    have hname' := mt (h.mem_of_mem (by decide) (by decide) (by decide)) hname
    rw [protoParameter?_append hname', protoParameter?_append hname]
    simp only [isProto_iff_of_respelled h]
  | value hname h => rw [protoParameter?_append hname, protoParameter?_append hname, h.trim_eq]

/-! ### Content types -/

/-- The media type of a content type and its parameters. -/
def parts (value : String) : List (List Char) := value.toList.splitOn ';'

/-- The content type of the parts. -/
def written (parts : List (List Char)) : String := String.ofList ([';'].intercalate parts)

/-- One change to the parts of a content type that does not concern the version. A parameter is put
in anywhere behind the media type. -/
inductive Edit : List (List Char) → List (List Char) → Prop where
  | type {type type' : List Char} (h : Respelled type type') (parameters : List (List Char)) :
    Edit (type :: parameters) (type' :: parameters)
  | parameter {parameter parameter' : List Char} (h : ParameterEdit parameter parameter')
    (type : List Char) (before after : List (List Char)) :
    Edit (type :: (before ++ parameter :: after)) (type :: (before ++ parameter' :: after))
  | insert {parameter : List Char} (h : ¬ NamesProto parameter) (type : List Char)
    (before after : List (List Char)) :
    Edit (type :: (before ++ after)) (type :: (before ++ parameter :: after))

theorem Edit.ofParts?_eq (h : Edit edited edited') : ofParts? edited' = ofParts? edited := by
  cases h with
  | type h parameters => simp only [ofParts?, h.sameIgnoringCase_trim_eq]
  | parameter h type before after =>
    simp only [ofParts?, List.findSome?_append, List.findSome?_cons, h.protoParameter?_eq]
  | insert h type before after =>
    simp only [ofParts?, List.findSome?_append, List.findSome?_cons,
      protoParameter?_eq_none_iff.mpr h]

theorem ofParts?_eq_of_edits (h : Relation.EqvGen Edit edited edited') :
    ofParts? edited' = ofParts? edited := by
  induction h with
  | rel _ _ h => exact h.ofParts?_eq
  | refl _ => rfl
  | symm _ _ _ ih => exact ih.symm
  | trans _ _ _ _ _ ih ih' => exact ih'.trans ih

theorem ofParts?_parts (value : String) : ofParts? (parts value) = ofContentType? value := rfl

theorem parts_ne_nil (value : String) : parts value ≠ [] := List.splitOn_ne_nil ';' value.toList

theorem notMem_of_mem_parts {value : String} {part : List Char} (h : part ∈ parts value) :
    ';' ∉ part := notMem_of_mem_splitOn h

theorem ofContentType?_written (h : ∀ part ∈ edited, ';' ∉ part) :
    ofContentType? (written edited) = ofParts? edited := by
  rw [ofContentType?, written, String.toList_ofList]
  cases edited with
  | nil => decide
  | cons type parameters => rw [List.splitOn_intercalate ';' h (List.cons_ne_nil _ _)]

theorem ofSchema?_eq_some_iff {found : Option String} : ofSchema? found = some version ↔
    found = some version.schema ∨ found = none ∧ version = legacy := by
  cases found with
  | none => simp [ofSchema?, eq_comm]
  | some name =>
    have hne : legacy.schema ≠ indexed.schema := by decide
    simp only [ofSchema?, Option.some.injEq, reduceCtorEq, false_and, or_false]
    split_ifs with hlegacy hindexed
    · cases version <;> simp [hlegacy, hne]
    · cases version <;> simp [hindexed, hne.symm]
    · cases version <;> simp [hlegacy, hindexed]

/-- The first parameter of the name `proto` has this schema for its value. -/
def FirstProto (parameters : List (List Char)) (schema : List Char) : Prop :=
  ∃ before name value after, parameters = before ++ (name ++ '=' :: value) :: after ∧
    (∀ other ∈ before, ¬ NamesProto other) ∧ '=' ∉ name ∧ IsProto name ∧ Quotes value schema

theorem findSome?_eq_schema_iff : parameters.findSome? protoParameter? = some version.schema ↔
    FirstProto parameters version.schema.toList := by
  simp only [List.findSome?_eq_some_iff, protoParameter?_eq_none_iff, protoParameter?_eq_schema_iff]
  constructor
  · rintro ⟨before, parameter, after, rfl, ⟨name, value, rfl, hname, hproto, hvalue⟩, hbefore⟩
    exact ⟨before, name, value, after, rfl, hbefore, hname, hproto, hvalue⟩
  · rintro ⟨before, name, value, after, rfl, hbefore, hname, hproto, hvalue⟩
    exact ⟨before, _, after, rfl, ⟨name, value, rfl, hname, hproto, hvalue⟩, hbefore⟩

/-- The schema tells the version, and without one it is the legacy version. -/
theorem ofParts?_cons_eq_some_iff {type : List Char} :
    ofParts? (type :: parameters) = some version ↔
      sameIgnoringCase (trim type) mediaType.toList = true ∧
        (FirstProto parameters version.schema.toList ∨
          (∀ parameter ∈ parameters, ¬ NamesProto parameter) ∧ version = legacy) := by
  rw [ofParts?]
  split
  · next h =>
    rw [and_iff_right h, ofSchema?_eq_some_iff, findSome?_eq_schema_iff, List.findSome?_eq_none_iff]
    simp only [protoParameter?_eq_none_iff]
  · next h => exact iff_of_false (by simp) fun hand => h hand.1

/-- What a content type claims, and what that does not depend on. -/
structure DecidedByProto (value : String) : Prop where
  claims_iff : ∀ version, ofContentType? value = some version ↔
    ∃ type parameters, parts value = type :: parameters ∧
      sameIgnoringCase (trim type) mediaType.toList = true ∧
      (FirstProto parameters version.schema.toList ∨
        (∀ parameter ∈ parameters, ¬ NamesProto parameter) ∧ version = legacy)
  /-- The parts may be edited, by one change after another and also backwards. -/
  unchanged : ∀ edited, Relation.EqvGen Edit (parts value) edited → (∀ part ∈ edited, ';' ∉ part) →
    ofContentType? (written edited) = ofContentType? value
  /-- The first of several parameters `proto` says as much as all of them. -/
  first : ∀ type before parameter after, parts value = type :: (before ++ parameter :: after) →
    NamesProto parameter → (∀ other ∈ before, ¬ NamesProto other) →
    ofContentType? value = ofContentType? (written [type, parameter])

theorem decidedByProto (value : String) : DecidedByProto value where
  claims_iff version := by
    obtain ⟨type, parameters, hparts⟩ := List.exists_cons_of_ne_nil (parts_ne_nil value)
    rw [← ofParts?_parts, hparts, ofParts?_cons_eq_some_iff]
    constructor
    · intro h
      exact ⟨type, parameters, rfl, h⟩
    · rintro ⟨_, _, heq, h⟩
      cases heq
      exact h
  unchanged edited h hedited := by
    rw [ofContentType?_written hedited, ofParts?_eq_of_edits h, ofParts?_parts]
  first type before parameter after hparts hproto hbefore := by
    have hsub : [type, parameter] ⊆ parts value := by
      rw [hparts]
      simp
    have halone : [parameter].findSome? protoParameter? = protoParameter? parameter :=
      findSome?_append_cons (List.forall_mem_nil _) hproto []
    rw [ofContentType?_written fun part hpart => notMem_of_mem_parts (hsub hpart), ← ofParts?_parts,
      hparts, ofParts?, ofParts?, findSome?_append_cons hbefore hproto, halone]

/-- Two parameters `proto`, which do not agree. -/
def rivals : String :=
  "application/x-protobuf;proto=io.prometheus.write.v2.Request;proto=prometheus.WriteRequest"

theorem parts_rivals : parts rivals = ["application/x-protobuf".toList,
    "proto=io.prometheus.write.v2.Request".toList, "proto=prometheus.WriteRequest".toList] := by
  cbv

/-- The parts of `rivals` in another spelling, and one more of them. -/
def disguised : List (List Char) :=
  ["Application/X-Protobuf".toList, "q".toList, "PROTO=\tio.prometheus.write.v2.Request".toList,
    "proto=prometheus.WriteRequest".toList]

theorem edits_disguised : Relation.EqvGen Edit (parts rivals) disguised := by
  have htype : Recased "application/x-protobuf".toList "Application/X-Protobuf".toList := by
    unfold Recased
    decide
  have hflag : ¬ NamesProto "q".toList :=
    protoParameter?_eq_none_iff.mp (protoParameter?_of_notMem (by decide))
  have hname : Recased "proto".toList "PROTO".toList := by
    unfold Recased
    decide
  have hvalue : Padded "io.prometheus.write.v2.Request".toList
      "\tio.prometheus.write.v2.Request".toList :=
    ⟨['\t'], [], rfl, List.forall_mem_singleton.mpr rfl, List.forall_mem_nil _⟩
  rw [parts_rivals]
  refine .trans _ _ _ (.rel _ _ (.type (.recased htype) _)) ?_
  refine .trans _ _ _ (.rel _ _ (.insert hflag _ [] _)) ?_
  refine .trans _ _ _
    (.rel _ _ (.parameter (.name (by decide) (.recased hname) _) _ ["q".toList] _)) ?_
  exact .rel _ _ (.parameter (.value (by decide) hvalue) _ ["q".toList] _)

/-- The first one decides, however it is spelled. -/
theorem decidedByProto_rivals :
    Relation.EqvGen Edit (parts rivals) disguised ∧ (∀ part ∈ disguised, ';' ∉ part) ∧
      NamesProto "proto=io.prometheus.write.v2.Request".toList ∧
      ofContentType? rivals = some indexed ∧ ofContentType? (written disguised) = some indexed ∧
      ofContentType? (written ["application/x-protobuf".toList,
        "proto=io.prometheus.write.v2.Request".toList]) = some indexed := by
  have hfree : ∀ part ∈ disguised, ';' ∉ part := by decide
  have hproto : NamesProto "proto=io.prometheus.write.v2.Request".toList :=
    ⟨"proto".toList, indexed.schema.toList, rfl, by decide, by decide⟩
  have hjudged := decidedByProto rivals
  have hclaim : ofContentType? rivals = some indexed :=
    (hjudged.claims_iff indexed).mpr ⟨_, _, parts_rivals, by decide, .inl ⟨[], "proto".toList,
      indexed.schema.toList, _, rfl, List.forall_mem_nil _, by decide, by decide, [], [], by decide,
      List.forall_mem_nil _, List.forall_mem_nil _⟩⟩
  refine ⟨edits_disguised, hfree, hproto, hclaim, ?_, ?_⟩
  · rw [hjudged.unchanged disguised edits_disguised hfree, hclaim]
  · rw [← hjudged.first _ [] _ _ parts_rivals hproto (List.forall_mem_nil _), hclaim]

/-- Blanks within the quotes are the schema's. -/
example : ofContentType? "application/x-protobuf;proto=\" prometheus.WriteRequest\"" = none := by
  cbv

end Version

end RemoteWrite
