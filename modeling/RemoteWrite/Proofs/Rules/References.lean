import RemoteWrite.Proofs.Rules.Checks
import RemoteWrite.Proofs.Rules.Message

/-!
# References as they are resolved and as they are judged

A reference list is resolved pair by pair up to the first reference that is past the end of the
table, and the rules look for that reference along the whole list. Both come to the same end: a list
resolves exactly if no rule finds fault with it, and the reference that keeps it from resolving is
the one that the rules report (`Rules.judgesReferences_labelRefs`). Of a list of odd length only the
rules say more than that it is odd.
-/

namespace RemoteWrite

namespace SymbolTable

variable {table : SymbolTable} {refs : List UInt32} {pairs : LabelList} {position : Nat}
  {reference : UInt32}

theorem lookupAt_of_lt (h : reference.toNat < table.length) (position : Nat) :
    ∃ s, table.lookupAt position reference = .ok s := by
  refine ⟨table[reference.toNat], ?_⟩
  simp [lookupAt, h]

theorem lookupAt_of_le (h : table.length ≤ reference.toNat) (position : Nat) :
    table.lookupAt position reference = .error (.dangling position reference table.length) := by
  simp [lookupAt, h]

/-- The reference at the position is past the end of the table, and none before it is. -/
structure FirstDangling (table : SymbolTable) (refs : List UInt32) (position : Nat)
    (reference : UInt32) : Prop where
  found : refs[position]? = some reference
  dangling : table.length ≤ reference.toNat
  first : ∀ i < position, ∀ r, refs[i]? = some r → r.toNat < table.length

/-- What is resolved fails at the first reference that is past the end, wherever it starts to
count. -/
theorem resolveFrom_of_firstDangling (heven : refs.length % 2 = 0)
    (h : table.FirstDangling refs position reference) (start : Nat) :
    resolveFrom table start refs
      = .error (.dangling (start + position) reference table.length) := by
  induction start, refs using resolveFrom.induct generalizing position with
  | case1 start name value refs ih =>
    have heven : refs.length % 2 = 0 := by simp only [List.length_cons] at heven; omega
    -- The first one is the name, the value or one of the rest.
    rcases position with _ | _ | position
    · obtain rfl : name = reference := by simpa using h.found
      simp only [resolveFrom, lookupAt_of_le h.dangling]
      rfl
    · obtain rfl : value = reference := by simpa using h.found
      obtain ⟨n, hn⟩ := lookupAt_of_lt (h.first 0 (by omega) name rfl) start
      simp only [resolveFrom, hn, lookupAt_of_le h.dangling]
      rfl
    · obtain ⟨n, hn⟩ := lookupAt_of_lt (h.first 0 (by omega) name rfl) start
      obtain ⟨v, hv⟩ := lookupAt_of_lt (h.first 1 (by omega) value rfl) (start + 1)
      have hrest : table.FirstDangling refs position reference := by
        refine ⟨by simpa using h.found, h.dangling, fun i hi r hr => ?_⟩
        exact h.first (i + 2) (by omega) r (by simpa using hr)
      have hposition : start + 2 + position = start + (position + 1 + 1) := by omega
      simp only [resolveFrom, hn, hv, ih heven hrest, hposition]
      rfl
  | case2 refs start hshort =>
    have hfound := h.found
    rcases refs with _ | ⟨name, _ | ⟨value, refs⟩⟩
    · simp at hfound
    · simp at heven
    · exact (hshort name value refs rfl).elim

theorem resolve_of_firstDangling (heven : refs.length % 2 = 0)
    (h : table.FirstDangling refs position reference) :
    table.resolve refs = .error (.dangling position reference table.length) := by
  rw [resolve, if_pos heven, resolveFrom_of_firstDangling heven h, Nat.zero_add]

/-- The texts of a list that resolves, pair by pair. -/
theorem getElem?_of_resolve (h : table.resolve refs = .ok pairs) {k : Nat} {p : String × String}
    (hp : pairs[k]? = some p) : ∃ name value, refs[2 * k]? = some name ∧
      refs[2 * k + 1]? = some value ∧ table[name.toNat]? = some p.1 ∧
      table[value.toNat]? = some p.2 := by
  rw [resolve_eq_ok_iff] at h
  induction pairs generalizing refs k with
  | nil => simp at hp
  | cons first pairs ih =>
    obtain ⟨s, t⟩ := first
    rcases refs with _ | ⟨name, _ | ⟨value, refs⟩⟩
    · simp [textsOf_cons] at h
    · simp [textsOf_cons] at h
    · simp only [textsOf_cons, List.map_cons, List.cons.injEq] at h
      obtain ⟨hname, hvalue, hrest⟩ := h
      cases k with
      | zero =>
        obtain rfl : (s, t) = p := by simpa using hp
        exact ⟨name, value, rfl, rfl, hname, hvalue⟩
      | succ k =>
        obtain ⟨n, v, hn, hv, htexts⟩ := ih hrest (by simpa using hp)
        have hindex : 2 * (k + 1) = 2 * k + 1 + 1 := by omega
        exact ⟨n, v, by simpa [hindex] using hn, by simpa [hindex] using hv, htexts⟩

theorem length_of_resolve (h : table.resolve refs = .ok pairs) :
    pairs.length = refs.length / 2 := by
  have hlength := congrArg List.length (resolve_eq_ok_iff.mp h)
  simp only [List.length_map, length_textsOf] at hlength
  omega

end SymbolTable

namespace Rules

variable {table : SymbolTable} {refs : List UInt32} {position : Nat} {reference : UInt32}
  {place : Location}

theorem firstInvalid?_eq_some_iff :
    firstInvalid? refs table.length = some (reference, position)
      ↔ table.FirstDangling refs position reference := by
  rw [firstInvalid?, List.find?_eq_some_iff_getElem]
  constructor
  · rintro ⟨hdangling, i, hi, hfound, hfirst⟩
    rw [List.getElem_zipIdx] at hfound
    simp only [List.length_zipIdx] at hi
    simp only [Nat.zero_add, Prod.mk.injEq] at hfound
    obtain ⟨rfl, rfl⟩ := hfound
    refine ⟨List.getElem?_eq_getElem hi, by simpa using hdangling, fun j hj r hr => ?_⟩
    obtain ⟨hlt, rfl⟩ := List.getElem?_eq_some_iff.mp hr
    simpa using hfirst j hj
  · rintro ⟨hfound, hdangling, hfirst⟩
    obtain ⟨hlt, rfl⟩ := List.getElem?_eq_some_iff.mp hfound
    refine ⟨by simpa using hdangling, position, by simpa using hlt, by simp, fun j hj => ?_⟩
    simpa using hfirst j hj refs[j] (List.getElem?_eq_getElem (by omega))

theorem exists_firstDangling (h : ∃ r ∈ refs, table.length ≤ r.toNat) :
    ∃ position reference, table.FirstDangling refs position reference := by
  cases hfirst : firstInvalid? refs table.length with
  | none =>
    obtain ⟨r, hr, hle⟩ := h
    exact absurd (firstInvalid?_eq_none.mp hfirst r hr) (Nat.not_lt.mpr hle)
  | some found => exact ⟨found.2, found.1, firstInvalid?_eq_some_iff.mp hfirst⟩

/-- The two findings on a reference list say what becomes of it when it is resolved. -/
structure JudgesReferences (table : SymbolTable) (refs : List UInt32) (even valid : Finding) :
    Prop where
  checks : even.check = "label-refs-even" ∧ valid.check = "label-refs-valid"
  resolves_iff : (∃ pairs, table.resolve refs = .ok pairs)
    ↔ even.passed = true ∧ valid.passed = true
  pairs : ∀ pairs, table.resolve refs = .ok pairs → pairs.length = refs.length / 2 ∧
    ∀ (k : Nat) p, pairs[k]? = some p → ∃ name value, refs[2 * k]? = some name ∧
      refs[2 * k + 1]? = some value ∧ table[name.toNat]? = some p.1 ∧
      table[value.toNat]? = some p.2
  /-- An odd length is told whatever the references are. -/
  unpaired : refs.length % 2 = 1 → table.resolve refs = .error (.unpaired refs.length) ∧
    even.passed = false ∧ even.message = (Error.unpaired refs.length).message
  dangling : refs.length % 2 = 0 → (∃ r ∈ refs, table.length ≤ r.toNat) →
    ∃ position reference, table.FirstDangling refs position reference ∧
      table.resolve refs = .error (.dangling position reference table.length)
  /-- The rules tell the first reference past the end of lists of any length. -/
  reported : ∀ position reference, table.FirstDangling refs position reference →
    valid.passed = false ∧ valid.message = (Error.dangling position reference table.length).message

theorem exists_judgesReferences (table : SymbolTable) (refs : List UInt32) (place : Location) :
    ∃ even valid, labelRefs refs table.length place = [even, valid] ∧
      JudgesReferences table refs even valid := by
  refine ⟨_, _, rfl, ⟨⟨rfl, rfl⟩, ?resolves_iff, ?pairs, ?unpaired, ?dangling, ?reported⟩⟩
  case resolves_iff =>
    rw [SymbolTable.exists_resolve_iff, SymbolTable.Holds, ← firstInvalid?_eq_none]
    simp [Finding.of]
  case pairs =>
    intro pairs h
    exact ⟨SymbolTable.length_of_resolve h, fun k p hp => SymbolTable.getElem?_of_resolve h hp⟩
  case unpaired =>
    intro hodd
    have heven : ¬ refs.length % 2 = 0 := by omega
    simp [SymbolTable.resolve, Finding.of, heven]
  case dangling =>
    intro heven hbad
    obtain ⟨position, reference, h⟩ := exists_firstDangling hbad
    exact ⟨position, reference, h, SymbolTable.resolve_of_firstDangling heven h⟩
  case reported =>
    intro position reference h
    rw [firstInvalid?_eq_some_iff.mpr h]
    exact ⟨rfl, rfl⟩

/-- The rules that need the labels of a series record their checks, each once, exactly if the label
references resolve. -/
theorem checks_series (m : Indexed.Message) (s : Indexed.Series) (place : Location) :
    (∀ pairs, SymbolTable.resolve m.symbols s.labelRefs = .ok pairs →
      ((series (.indexed m s) place).filter (·.check ∈ labelChecks)).map (·.check) = labelChecks) ∧
    ∀ e, SymbolTable.resolve m.symbols s.labelRefs = .error e →
      (series (.indexed m s) place).filter (·.check ∈ labelChecks) = [] := by
  rw [filter_series, resolvedLabels, SeriesView.labels]
  constructor
  · intro pairs h
    rw [h]
    rfl
  · intro e h
    rw [h]
    rfl

/-- A reference list resolves exactly if neither rule for it finds fault, to the texts of its
references two by two, and else both tell the same of it. A series records the checks of its labels
exactly if its references resolve. -/
theorem judgesReferences_labelRefs (table : SymbolTable) (refs : List UInt32) (place : Location) :
    (∃ even valid, labelRefs refs table.length place = [even, valid] ∧
      JudgesReferences table refs even valid) ∧
    ∀ (m : Indexed.Message) (s : Indexed.Series), m.symbols = table → s.labelRefs = refs →
      (∀ pairs, table.resolve refs = .ok pairs →
        ((series (.indexed m s) place).filter (·.check ∈ labelChecks)).map (·.check)
          = labelChecks) ∧
      ∀ e, table.resolve refs = .error e →
        (series (.indexed m s) place).filter (·.check ∈ labelChecks) = [] := by
  refine ⟨exists_judgesReferences table refs place, ?_⟩
  rintro m s rfl rfl
  exact checks_series m s place

end Rules

end RemoteWrite
