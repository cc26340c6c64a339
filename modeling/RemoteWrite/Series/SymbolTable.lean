import Std.Data.HashMap
import RemoteWrite.Error

/-!
# Symbol tables

A table lists texts, and references are positions in it; position 0 is for the empty text. A table
that was received is kept as it is, whatever it holds. A table that is built never lists a text
twice: a builder hands out the reference of each text it is given, the old one for a text that it
knows.
-/

namespace RemoteWrite

abbrev SymbolTable := List String

abbrev LabelList := List (String × String)

namespace SymbolTable
variable (table : SymbolTable)

def lookup (index : UInt32) : Except Error String :=
  match table[index.toNat]? with
  | some s => .ok s
  | none => .error (.noSymbol index table.length)

/-- The text of a reference where 0 means that there is none. -/
def lookupOption (index : UInt32) : Except Error (Option String) :=
  if index = 0 then .ok none else (table.lookup index).map some

/-- The text of the reference that stands at `position` of a list. -/
def lookupAt (position : Nat) (reference : UInt32) : Except Error String :=
  match table[reference.toNat]? with
  | some s => .ok s
  | none => .error (.dangling position reference table.length)

/-- The pairs of a list that starts at `position`; of two bad references the first is told. -/
def resolveFrom : (position : Nat) → List UInt32 → Except Error LabelList
  | position, name :: value :: refs => do
    let name ← table.lookupAt position name
    let value ← table.lookupAt (position + 1) value
    return (name, value) :: (← resolveFrom (position + 2) refs)
  | _, _ => .ok []

/-- The names and values that a reference list alternates between, in its order. -/
def resolve (refs : List UInt32) : Except Error LabelList :=
  if refs.length % 2 = 0 then resolveFrom table 0 refs else .error (.unpaired refs.length)

/-- Adds a position to the group of a text. -/
def addPosition (s : String) (position : Nat) :
    List (String × List Nat) → List (String × List Nat)
  | [] => [(s, [position])]
  | (t, positions) :: groups =>
    if s = t then (t, positions ++ [position]) :: groups
    else (t, positions) :: addPosition s position groups

/-- The positions of each text that is not empty. -/
def positions : List (String × List Nat) :=
  table.zipIdx.foldl (fun groups (s, i) => if s = "" then groups else addPosition s i groups) []

/-- Of groups in any order, those with several positions, by the first of them. -/
def repeatsOf (groups : List (String × List Nat)) : List (String × List Nat) :=
  (groups.filter fun (_, positions) => 1 < positions.length).mergeSort
    fun (_, a) (_, b) => a.headD 0 ≤ b.headD 0

/-- The texts that stand at several positions, the empty one aside. -/
def repeats : List (String × List Nat) := repeatsOf table.positions

end SymbolTable

/-- The table so far, and where each of its texts is. -/
structure SymbolBuilder where
  symbols : Array String
  index : Std.HashMap String UInt32

namespace SymbolBuilder

/-- The table that only lists the empty text. -/
def empty : SymbolBuilder := ⟨#[""], (∅ : Std.HashMap String UInt32).insert "" 0⟩

instance : Inhabited SymbolBuilder := ⟨empty⟩

def table (b : SymbolBuilder) : SymbolTable := b.symbols.toList

end SymbolBuilder

/-- Steps of building a table. A step that fails keeps what was built before. -/
abbrev Interning := ExceptT Error (StateM SymbolBuilder)

namespace Interning

/-- The reference of a text. A table has no more than `2 ^ 32` entries. -/
def intern (s : String) : Interning UInt32 := do
  let b ← get
  match b.index[s]? with
  | some reference => return reference
  | none =>
    if b.symbols.size < UInt32.size then
      let reference := UInt32.ofNat b.symbols.size
      set (SymbolBuilder.mk (b.symbols.push s) (b.index.insert s reference))
      return reference
    else throw (.notHeld "symbol index" b.symbols.size .size .u32)

/-- The reference list of label pairs. -/
def internLabels : LabelList → Interning (List UInt32)
  | [] => return []
  | (name, value) :: pairs => do
    let name ← intern name
    let value ← intern value
    return name :: value :: (← internLabels pairs)

/-- The reference of a text that may be absent, which is 0 then. -/
def internOption : Option String → Interning UInt32
  | none => return 0
  | some s => intern s

end Interning

/-- The table of the empty text and the distinct texts of `texts`, in the order of their first
occurrences; it ends where it is full. -/
def SymbolTable.ofTexts (texts : List String) : SymbolTable :=
  let build : Interning Unit := texts.forM fun s => do discard (Interning.intern s)
  ((build.run).run .empty).2.table

end RemoteWrite
