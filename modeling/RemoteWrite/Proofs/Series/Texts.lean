import RemoteWrite.Proofs.Series.InternCalls
import RemoteWrite.Proofs.Series.Spec

/-!
# Room for the texts of a message

A message of the indexed version lists each text of its series once. It is built exactly if the table
has room for the distinct texts that are not empty (`Message.exists_indexed_iff`).
-/

namespace RemoteWrite

/-- How many different texts there are, the empty one aside. -/
def numDistinct (texts : List String) : Nat := (texts.filter (· ≠ "")).eraseDups.length

theorem numDistinct_congr {texts more : List String} (h : ∀ s, s ∈ texts ↔ s ∈ more) :
    numDistinct texts = numDistinct more := by
  refine List.Perm.length_eq ?_
  rw [List.perm_ext_iff_of_nodup (nodup_eraseDups _) (nodup_eraseDups _)]
  intro s
  simp only [List.mem_eraseDups, List.mem_filter, h]

/-! ### What building a series adds -/

namespace Interning.Adds

variable {α β : Type} {f : β → Interning α} {texts : β → List String}

theorem mapM (hf : ∀ x, Adds (f x) (texts x)) (xs : List β) :
    Adds (xs.mapM f) (xs.flatMap texts) := by
  induction xs with
  | nil =>
    rw [List.mapM_nil]
    exact .of_pure []
  | cons x xs ih =>
    rw [List.mapM_cons, List.flatMap_cons, ← List.append_nil (xs.flatMap texts)]
    exact (hf x).bind fun a => ih.bind fun as => .of_pure (a :: as)

theorem optionMapM (hf : ∀ x, Adds (f x) (texts x)) (x : Option β) :
    Adds (x.mapM f) (x.toList.flatMap texts) := by
  cases x with
  | none => exact .of_pure none
  | some x =>
    rw [Option.toList_some, List.flatMap_singleton, ← List.append_nil (texts x)]
    exact (hf x).bind fun a => .of_pure (some a)

end Interning.Adds

/-- The texts that metadata refer to. -/
def Metadata.texts (d : Metadata) : List String := d.help.toList ++ d.unit.toList

/-- The texts that a series refers to, in the order in which they are interned. -/
def SeriesSpec.texts (s : SeriesSpec) : List String :=
  SymbolTable.textsOf s.labelsByName ++ (s.exemplars.flatMap (fun e => SymbolTable.textsOf e.labels)
    ++ s.metadata.toList.flatMap (·.texts))

namespace Indexed

open Interning

theorem adds_exemplarOf (e : ExemplarSpec) : Adds (exemplarOf e) (SymbolTable.textsOf e.labels) := by
  rw [← List.append_nil (SymbolTable.textsOf e.labels)]
  exact (adds_internLabels e.labels).bind fun _ => .of_pure _

theorem adds_metadataOf (d : RemoteWrite.Metadata) : Adds (metadataOf d) d.texts := by
  rw [RemoteWrite.Metadata.texts, ← List.append_nil d.unit.toList]
  exact (adds_internOption d.help).bind fun _ => (adds_internOption d.unit).bind fun _ =>
    .of_pure _

theorem adds_seriesOf (s : SeriesSpec) : Adds (seriesOf s) s.texts := by
  rw [SeriesSpec.texts, ← List.append_nil (s.metadata.toList.flatMap _)]
  exact (adds_internLabels s.labelsByName).bind fun _ =>
    (Adds.mapM adds_exemplarOf s.exemplars).bind fun _ =>
      (Adds.optionMapM adds_metadataOf s.metadata).bind fun _ => .of_pure _

theorem exists_ofSpecs_iff {specs : List SeriesSpec} :
    (∃ m, Message.ofSpecs specs = .ok m) ↔ numDistinct (specs.flatMap (·.texts)) < UInt32.size := by
  have hlength : (SymbolBuilder.empty.table ++ specs.flatMap (·.texts)).eraseDups.length
      = numDistinct (specs.flatMap (·.texts)) + 1 :=
    congrArg List.length (eraseDups_cons_empty _)
  rcases hrun : ((specs.mapM seriesOf).run).run .empty with ⟨result, b⟩
  have hadded := Adds.mapM adds_seriesOf specs .empty SymbolBuilder.valid_empty result b hrun
  have hroom := hadded.exists_ok_iff SymbolBuilder.valid_empty
  rw [hlength] at hroom
  refine Iff.trans ?_ hroom
  rw [Message.ofSpecs, hrun]
  cases result with
  | error e => exact iff_of_false (fun ⟨_, h⟩ => nomatch h) (fun ⟨_, h⟩ => nomatch h)
  | ok series => exact iff_of_true ⟨_, rfl⟩ ⟨_, rfl⟩

end Indexed

/-- Only the number of texts keeps the indexed version from being built. -/
theorem Message.exists_indexed_iff {specs : List SeriesSpec} :
    (∃ m, ofSpecs .indexed specs = .ok m) ↔ numDistinct (specs.flatMap (·.texts)) < UInt32.size :=
  exists_map_iff.trans Indexed.exists_ofSpecs_iff

end RemoteWrite
