/-!
# Reports

A finding says of one check whether it passed, how strongly the protocol asks for it and where it
was made. A report lists the findings of all checks that ran, in their order.
-/

namespace RemoteWrite

inductive Level where
  | must | should | may | recommended
  deriving DecidableEq, Inhabited

def Level.name : Level → String
  | must => "MUST"
  | should => "SHOULD"
  | may => "MAY"
  | recommended => "RECOMMENDED"

structure Location where
  request : Option Nat
  series : Option Nat
  deriving DecidableEq, Inhabited

namespace Location

def whole : Location := ⟨none, none⟩

def ofRequest (index : Nat) : Location := ⟨some index, none⟩

def atSeries (l : Location) (index : Nat) : Location := { l with series := some index }

def text : Location → String
  | ⟨some r, some s⟩ => s!"request {r} series {s}"
  | ⟨some r, none⟩ => s!"request {r}"
  | ⟨none, some s⟩ => s!"series {s}"
  | ⟨none, none⟩ => "scenario"

end Location

structure Finding where
  level : Level
  check : String
  passed : Bool
  location : Location
  message : String
  deriving DecidableEq, Inhabited

namespace Finding

/-- The finding of one check; a check that passed has no message. -/
def of (location : Location) (level : Level) (check : String) (passed : Bool) (message : String) :
    Finding :=
  ⟨level, check, passed, location, if passed then "" else message⟩

def failed (f : Finding) : Bool := !f.passed

/-- A failed check that the protocol insists on. -/
def isViolation (f : Finding) : Bool := f.failed && f.level = .must

end Finding

structure Report where
  findings : List Finding
  deriving DecidableEq, Inhabited

namespace Report

def empty : Report := ⟨[]⟩

variable (r : Report)

def add (f : Finding) : Report := ⟨r.findings ++ [f]⟩

def append (other : Report) : Report := ⟨r.findings ++ other.findings⟩

def failures : List Finding := r.findings.filter Finding.isViolation

/-- Failed checks that the protocol does not insist on. -/
def warnings : List Finding := r.findings.filter fun f => f.failed && f.level ≠ .must

def passed : Bool := r.failures.isEmpty

/-- The check failed somewhere, at any level. -/
def hasFailed (check : String) : Bool := r.findings.any fun f => f.failed && f.check = check

end Report

end RemoteWrite
