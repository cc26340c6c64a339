import RemoteWrite.Neighbours
import RemoteWrite.Series.SymbolTable
import RemoteWrite.Text.Bytes

/-!
# Label sets

The labels of a series in the order in which the message lists them. Nothing is sorted or dropped
here: whether names ascend and differ is for validation to say.
-/

namespace RemoteWrite

structure Labels where
  pairs : LabelList
  deriving DecidableEq, Inhabited

namespace Labels

/-- The name of the label that holds the metric name. -/
def metricLabel : String := "__name__"

variable (l : Labels)

def get? (name : String) : Option String := (l.pairs.find? (·.1 = name)).map (·.2)

def metric? : Option String := l.get? metricLabel

def names : List String := l.pairs.map (·.1)

def isStrictlyAscending : Bool := (neighbours l.names).all fun (a, b) => Text.lt a b

def isAscending : Bool := (neighbours l.names).all fun (a, b) => Text.le a b

/-- The first of each run of equal texts. -/
def dropRepeats : List String → List String
  | a :: b :: rest => if a = b then dropRepeats (b :: rest) else a :: dropRepeats (b :: rest)
  | rest => rest

/-- The names that occur more than once, each once, in byte order. -/
def repeatedNames : List String :=
  dropRepeats (((neighbours (Text.sort l.names)).filter fun (a, b) => a = b).map (·.1))

def runes : Nat := l.pairs.foldl (fun n (name, value) => n + name.length + value.length) 0

end Labels

end RemoteWrite
