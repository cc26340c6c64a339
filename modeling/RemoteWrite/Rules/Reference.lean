import RemoteWrite.Report
import RemoteWrite.Series.SymbolTable
import RemoteWrite.Text.Quoted

/-!
# Rules for symbols and references

The first symbol is the empty text and no other text is listed twice. A list of label references has
even length and stays within the table.
-/

namespace RemoteWrite.Rules

open Text

/-- A table that lists nothing is right only for a message without series. -/
def symbols (table : SymbolTable) (series : Nat) (place : Location) : List Finding :=
  let duplicates := table.repeats
  let shown := duplicates.map fun (s, positions) =>
    "(" ++ quote s ++ ", " ++ bracketed (positions.map toString) ++ ")"
  [match table.head? with
    | some first =>
      .of place .must "symbols-empty-first" (first = "")
        ("symbol 0 must be the empty string, got " ++ quote first)
    | none =>
      .of place .must "symbols-empty-first" (series = 0)
        s!"symbol table is empty but {series} series reference it",
   .of place .must "symbols-unique" duplicates.isEmpty
    ("duplicate symbols (string, positions): " ++ bracketed shown)]

/-- The first reference past the end of a table of the given size, with its position. -/
def firstInvalid? (refs : List UInt32) (size : Nat) : Option (UInt32 × Nat) :=
  refs.zipIdx.find? fun (reference, _) => size ≤ reference.toNat

def labelRefs (refs : List UInt32) (size : Nat) (place : Location) : List Finding :=
  let invalid := firstInvalid? refs size
  let (reference, position) := invalid.getD (0, 0)
  [.of place .must "label-refs-even" (refs.length % 2 = 0) (Error.unpaired refs.length).message,
   .of place .must "label-refs-valid" invalid.isNone
    (Error.dangling position reference size).message]

end RemoteWrite.Rules
