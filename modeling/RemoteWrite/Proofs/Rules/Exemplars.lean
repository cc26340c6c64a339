import RemoteWrite.Proofs.Rules.Message

/-!
# Exemplars beside one that does not resolve

The exemplars of a series are resolved together before any of them is judged. So what is wrong with
an exemplar is reported of every exemplar that resolves, or of none: one with a reference that does
not hold hides the violations of the others (`Rules.reports_exemplars_iff`).
-/

namespace RemoteWrite

namespace SeriesView

variable {v : SeriesView} {es : List Exemplar}

/-- The exemplars, each resolved by itself. -/
def eachExemplar : SeriesView → List (Except Error Exemplar)
  | legacy _ s => s.exemplars.map fun e => .ok ⟨ofLegacyLabels e.labels, e.value, e.timestamp⟩
  | indexed m s => s.exemplars.map fun e =>
    (SymbolTable.resolve m.symbols e.labelRefs).map fun pairs => ⟨⟨pairs⟩, e.value, e.timestamp⟩

theorem exemplars_eq_ok_iff : v.exemplars = .ok es ↔ v.eachExemplar = es.map .ok := by
  rw [← List.forall₂_eq_eq_eq, List.forall₂_map_right_iff]
  cases v with
  | legacy m s =>
    simp only [exemplars, eachExemplar, Except.ok.injEq, List.forall₂_map_left_iff]
    rw [← List.forall₂_map_left_iff (R := (· = ·)), List.forall₂_eq_eq_eq]
  | indexed m s =>
    rw [exemplars, mapM_eq_ok_iff, eachExemplar, List.forall₂_map_left_iff]
    rfl

end SeriesView

namespace Rules

variable {v : SeriesView} {e : Exemplar} {i : Nat} {place : Location}

def labelsTooLong (e : Exemplar) (i : Nat) (place : Location) : Finding :=
  .of place .must "exemplar-labels-length" false
    s!"exemplar {i} labels are {e.labels.runes} characters, limit is {maxExemplarRunes}"

def notInMillis (e : Exemplar) (i : Nat) (place : Location) : Finding :=
  .of place .must "exemplar-timestamp" false
    s!"exemplar {i} timestamp {e.timestamp} is not in milliseconds"

/-- Whatever is wrong with the exemplar at position `i` is among the findings. -/
structure Reports (findings : List Finding) (e : Exemplar) (i : Nat) (place : Location) :
    Prop where
  runes : 128 < e.labels.runes → labelsTooLong e i place ∈ findings
  millis : ¬ Millis e.timestamp → notInMillis e i place ∈ findings

theorem reports_exemplar (e : Exemplar) (i : Nat) (place : Location) :
    Reports (exemplar e i place) e i place where
  runes h := by
    have hfalse : decide (e.labels.runes ≤ maxExemplarRunes) = false :=
      decide_eq_false (Nat.not_le.mpr h)
    rw [exemplar, hfalse]
    exact List.mem_cons_self
  millis h := by
    have hfalse : isMillisecond e.timestamp = false :=
      Bool.eq_false_iff.mpr fun ht => h (isMillisecond_iff.mp ht)
    rw [exemplar, hfalse]
    exact List.mem_cons_of_mem _ List.mem_cons_self

theorem Reports.mono {findings more : List Finding} (h : Reports findings e i place)
    (hsub : findings ⊆ more) : Reports more e i place where
  runes hr := hsub (h.runes hr)
  millis hm := hsub (h.millis hm)

/-- Only that something does not resolve is told then. -/
theorem exemplars_of_not_hold (h : ¬ v.ExemplarsHold) (place : Location) :
    ∃ text, exemplars v place = [.of place .must "exemplar-refs" false text] := by
  rw [← SeriesView.exists_exemplars_iff] at h
  unfold exemplars
  cases hv : v.exemplars with
  | error e => exact ⟨_, rfl⟩
  | ok es => exact absurd ⟨es, hv⟩ h

theorem reports_exemplars (h : v.ExemplarsHold) (he : v.eachExemplar[i]? = some (.ok e))
    (place : Location) : Reports (exemplars v place) e i place := by
  obtain ⟨es, hes⟩ := SeriesView.exists_exemplars_iff.mpr h
  rw [SeriesView.exemplars_eq_ok_iff.mp hes, List.getElem?_map] at he
  have hget : es[i]? = some e := by simpa using he
  refine (reports_exemplar e i place).mono fun f hf => ?_
  simp only [exemplars, hes]
  exact List.mem_flatMap.mpr ⟨(e, i), List.mem_zipIdx_iff_getElem?.mpr hget, hf⟩

/-- The violations of all exemplars that resolve are reported exactly if all exemplars resolve, or
if there are none to report. -/
theorem reports_exemplars_iff (v : SeriesView) (place : Location) :
    (∀ i e, v.eachExemplar[i]? = some (.ok e) → Reports (exemplars v place) e i place) ↔
      v.ExemplarsHold ∨ ∀ (i : Nat) (e : Exemplar), v.eachExemplar[i]? = some (.ok e) →
        e.Conforms := by
  constructor
  · intro hreports
    by_cases hold : v.ExemplarsHold
    · exact .inl hold
    · obtain ⟨text, htext⟩ := exemplars_of_not_hold hold place
      refine .inr fun i e he => ?_
      have h := hreports i e he
      rw [htext] at h
      refine ⟨Nat.not_lt.mp fun hr => ?_, by_contra fun hm => ?_⟩
      · simpa [labelsTooLong, Finding.of] using h.runes hr
      · simpa [notInMillis, Finding.of] using h.millis hm
  · rintro (hold | hconforms) i e he
    · exact reports_exemplars hold he place
    · have hc := hconforms i e he
      exact ⟨fun hr => absurd hc.runes (Nat.not_le.mpr hr), fun hm => absurd hc.millis hm⟩

/-- The first exemplar is of the year 1970, the second one refers to a text that is not there. -/
def halfResolved : SeriesView :=
  let s : Indexed.Series := ⟨[1, 2], [⟨.one, 1700000000000⟩], [],
    [⟨[], .one, 1⟩, ⟨[3, 0], .one, 1700000000000⟩], some ⟨2, 0, 0⟩, 0⟩
  .indexed ⟨["", "__name__", "up"], [s]⟩ s

theorem hidden_halfResolved : ∃ e, halfResolved.eachExemplar[0]? = some (.ok e) ∧
    ¬ Millis e.timestamp ∧ notInMillis e 0 .whole ∉ exemplars halfResolved .whole := by
  have hhold : ¬ halfResolved.ExemplarsHold := fun h => by
    have hbound := (h ⟨[3, 0], .one, 1700000000000⟩ (by simp)).2 3 (by simp)
    exact absurd hbound (by decide)
  obtain ⟨text, htext⟩ := exemplars_of_not_hold hhold .whole
  refine ⟨⟨⟨[]⟩, .one, 1⟩, rfl, fun h => absurd h.1 (by decide), ?_⟩
  rw [htext]
  simp [notInMillis, Finding.of]

end Rules

end RemoteWrite
