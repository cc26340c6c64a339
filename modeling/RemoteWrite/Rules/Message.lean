import RemoteWrite.Rules.Series

/-!
# Rules for one message
-/

namespace RemoteWrite.Rules

def familyType? (v : SeriesView) : Option (String × MetricType) :=
  match v.metric?, v.metadata with
  | some name, .ok (some d) =>
    if d.type = .unspecified then none else some (Family.ofSeries name, d.type)
  | _, _ => none

/-- The types of each family in their order, families in byte order. -/
def familyTypes (m : Message) : List (String × List MetricType) :=
  let entries := m.series.filterMap familyType?
  (Text.sort (entries.map (·.1)).eraseDups).map fun family =>
    (family, ((entries.filter (·.1 = family)).map (·.2)).eraseDups)

def families (m : Message) (place : Location) : List Finding :=
  (familyTypes m).map fun (family, types) =>
    .of place .should "metadata-family-consistent" (types.length = 1)
      (s!"family {family} has conflicting types " ++ Text.bracketed (types.map (·.name)))

/-- The symbol table, which only the indexed version has. -/
def table (m : Message) (place : Location) : List Finding :=
  match m with
  | .legacy _ => []
  | .indexed x => symbols x.symbols x.series.length place

def message (m : Message) (place : Location) : List Finding :=
  table m place ++ (m.series.zipIdx.flatMap fun (v, i) => series v (place.atSeries i))
  ++ families m place

end RemoteWrite.Rules
