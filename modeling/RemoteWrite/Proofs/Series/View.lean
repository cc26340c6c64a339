import RemoteWrite.Proofs.Series.SymbolTable
import RemoteWrite.Proofs.Traversal
import RemoteWrite.Series.View

/-!
# When a series resolves

What a view gives of a series depends on references only in the indexed version, and there it is
given exactly if the references hold. One exemplar that does not resolve hides the others.
-/

namespace RemoteWrite.SymbolTable

/-- The reference is 0 or within the table. -/
def HoldsOption (table : SymbolTable) (reference : UInt32) : Prop :=
  reference = 0 ∨ reference.toNat < table.length

theorem exists_lookup_iff {table : SymbolTable} {reference : UInt32} :
    (∃ s, table.lookup reference = .ok s) ↔ reference.toNat < table.length := by
  unfold lookup
  split
  · next s h => exact iff_of_true ⟨s, rfl⟩ (List.getElem?_eq_some_iff.mp h).1
  · next h =>
    exact iff_of_false (fun ⟨_, h'⟩ => nomatch h') (Nat.not_lt.mpr (List.getElem?_eq_none_iff.mp h))

theorem exists_lookupOption_iff {table : SymbolTable} {reference : UInt32} :
    (∃ s, table.lookupOption reference = .ok s) ↔ table.HoldsOption reference := by
  unfold lookupOption HoldsOption
  split
  · next h => exact iff_of_true ⟨none, rfl⟩ (.inl h)
  · next h =>
    rw [or_iff_right h, ← exists_lookup_iff]
    constructor
    · rintro ⟨s, hs⟩
      cases hl : table.lookup reference with
      | error e => rw [hl] at hs; cases hs
      | ok t => exact ⟨t, rfl⟩
    · rintro ⟨s, hs⟩
      exact ⟨some s, by rw [hs]; rfl⟩

end RemoteWrite.SymbolTable

namespace RemoteWrite.SeriesView

variable {v : SeriesView}

/-- The label references hold. -/
def LabelsHold : SeriesView → Prop
  | legacy .. => True
  | indexed m s => SymbolTable.Holds m.symbols s.labelRefs

/-- The references of every exemplar hold. -/
def ExemplarsHold : SeriesView → Prop
  | legacy .. => True
  | indexed m s => ∀ e ∈ s.exemplars, SymbolTable.Holds m.symbols e.labelRefs

/-- The references of the metadata hold, if there is any. -/
def MetadataHolds : SeriesView → Prop
  | legacy .. => True
  | indexed m s => ∀ d, s.metadata = some d →
    SymbolTable.HoldsOption m.symbols d.helpRef ∧ SymbolTable.HoldsOption m.symbols d.unitRef

theorem exists_labels_iff : (∃ l, v.labels = .ok l) ↔ v.LabelsHold := by
  cases v with
  | legacy m s => exact iff_of_true ⟨_, rfl⟩ trivial
  | indexed m s =>
    rw [LabelsHold, ← SymbolTable.exists_resolve_iff, labels, exists_map_iff]

theorem exists_exemplars_iff : (∃ es, v.exemplars = .ok es) ↔ v.ExemplarsHold := by
  cases v with
  | legacy m s => exact iff_of_true ⟨_, rfl⟩ trivial
  | indexed m s =>
    rw [ExemplarsHold, exemplars, exists_mapM_iff]
    refine forall₂_congr fun e _ => ?_
    rw [← SymbolTable.exists_resolve_iff, bind_pure_comp]
    exact exists_map_iff

theorem exists_metadata_iff : (∃ d, v.metadata = .ok d) ↔ v.MetadataHolds := by
  cases v with
  | legacy m s =>
    refine iff_of_true ?_ trivial
    simp only [metadata]
    split <;> exact ⟨_, rfl⟩
  | indexed m s =>
    simp only [MetadataHolds, metadata, ← SymbolTable.exists_lookupOption_iff]
    cases s.metadata with
    | none => exact iff_of_true ⟨_, rfl⟩ fun _ h => nomatch h
    | some d =>
      simp only [Option.some.injEq, forall_eq']
      cases SymbolTable.lookupOption m.symbols d.helpRef with
      | error e => exact iff_of_false (fun ⟨_, h⟩ => nomatch h) (fun ⟨⟨_, h⟩, _⟩ => nomatch h)
      | ok help =>
        cases SymbolTable.lookupOption m.symbols d.unitRef with
        | error e => exact iff_of_false (fun ⟨_, h⟩ => nomatch h) (fun ⟨_, _, h⟩ => nomatch h)
        | ok unit => exact iff_of_true ⟨_, rfl⟩ ⟨⟨_, rfl⟩, _, rfl⟩

theorem length_samples : v.samples.length = v.numSamples := by
  cases v <;> exact List.length_map ..

end RemoteWrite.SeriesView
