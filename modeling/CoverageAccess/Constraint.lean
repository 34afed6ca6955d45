import CoverageAccess.Scaling.Basic
import CoverageAccess.Subset.Clause
import CoverageAccess.Table
import CoverageAccess.Text.Percent
/-!
# Constraint expressions

The backend selects data by a constraint expression: one `Clause` per field, with commas between
them. A clause is the field's variable with a bracket for every axis, if any axis is restricted by
position, in a `grid` call with the conditions, if any axis is restricted by value, in a
`scale_grid` call, if the grid is resampled. Brackets and conditions follow the storage order of the
axes, not the order of the request.

`Coverage.expression` is the expression of a selection, and `Coverage.constraint` its
percent-encoded form.
-/

namespace CoverageAccess

/-- What is selected of one field. -/
structure Clause where
  /-- The variable of the field. -/
  target : String
  /-- A bracket for every axis, or none at all. -/
  brackets : List String
  /-- The conditions on the coordinate variables. -/
  conditions : List String
  deriving DecidableEq, Repr

namespace Clause

def hyperslab (c : Clause) : String :=
  c.target ++ Text.join "" c.brackets

/-- The text of a clause. -/
def render (c : Clause) : String :=
  match c.conditions with
  | [] => c.hyperslab
  | conditions =>
    let arguments := Text.join "," (c.hyperslab :: conditions)
    s!"grid({arguments})"

end Clause

namespace Coverage

/-- Why a selection is no selection of the coverage. -/
inductive SelectionRefusal where
  | misfiled (dimension key : String)
  | unknownDimension (dimension coverage : String) (valid : List String)
  | unknownField (field coverage : String) (valid : List String)
  deriving DecidableEq, Repr

/-- The fault of a selection that is refused. -/
def SelectionRefusal.fault : SelectionRefusal → Fault
  | .misfiled dimension key => .internal s!"Subset for '{dimension}' filed under '{key}'"
  | .unknownDimension dimension coverage valid =>
    let valid := Text.join ", " valid
    .invalid "subset"
      s!"Bad subsetting request. A subset was requested for dimension '{dimension}', which is not a domain coordinate of coverage '{coverage}'. Valid coordinate dimension names for '{coverage}' are: {valid}"
  | .unknownField field coverage valid =>
    let valid := Text.join ", " valid
    .invalid "RangeSubset"
      s!"Coverage '{coverage}' has no field named '{field}'. Valid field names are: {valid}"

/-- A subset is filed under its own dimension, which is an axis of the coverage. -/
def checkSubset (c : Coverage) (key : String) (s : Subset) : Except SelectionRefusal Unit :=
  if key ≠ s.dimension then .error (.misfiled s.dimension key)
  else if (c.coordinate? key).isNone then
    .error (.unknownDimension key c.id c.coordinateNames)
  else .ok ()

def checkSubsets (c : Coverage) : List (String × Subset) → Except SelectionRefusal Unit
  | [] => .ok ()
  | (key, s) :: r => do
    c.checkSubset key s
    c.checkSubsets r

/-- The fields of the given names, in their order. -/
def fieldsNamed (c : Coverage) : List String → Except SelectionRefusal (List Field)
  | [] => .ok []
  | name :: r =>
    match c.field? name with
    | some f => (c.fieldsNamed r).map (f :: ·)
    | none => .error (.unknownField name c.id c.fieldNames)

/-- The selected fields: all of them when no name is given. -/
def selectedFields (c : Coverage) (names : List String) : Except SelectionRefusal (List Field) :=
  if names = [] then .ok c.fields else c.fieldsNamed names

/-- The bracket of an axis, if it is restricted by position. -/
def bracketOf? (subsets : Table Subset) (a : Coordinate) : Option String :=
  (subsets.get? a.name).bind Subset.bracket?

/-- A bracket for every axis, or none at all when no axis is restricted by position. -/
def brackets (subsets : Table Subset) (axes : List Coordinate) : List String :=
  let found := axes.map (bracketOf? subsets)
  if found.any Option.isSome then found.map fun b => b.getD "[*]" else []

/-- The condition on an axis, if it is restricted by value. -/
def conditionOf (subsets : Table Subset) (a : Coordinate) : Except Fault (Option String) :=
  match subsets.get? a.name with
  | none => .ok none
  | some s =>
    if s.byPosition then .ok none
    else if a.isTime then (s.timeCondition a.units a.variableId).map some
    else .ok (some (s.condition a.variableId))

/-- The conditions on the axes, in order. -/
def conditions (subsets : Table Subset) : List Coordinate → Except Fault (List String)
  | [] => .ok []
  | a :: r => do
    let first ← conditionOf subsets a
    let rest ← conditions subsets r
    return first.toList ++ rest

/-- The clause of a field, before resampling. -/
def clause (c : Coverage) (subsets : Table Subset) (f : Field) : Except Fault Clause := do
  let found ← conditions subsets c.coordinates
  return ⟨f.variableId, brackets subsets c.coordinates, found⟩

/-- The text of the clause of a field, resampled when the scaling is active. -/
def fieldText (c : Coverage) (subsets : Table Subset) (scaling : Scaling) (f : Field) :
    Except Fault String := do
  let clause ← c.clause subsets f
  if scaling.isActive then
    (scaling.wrap clause.render c.coordinates).mapError Scaling.Refusal.fault
  else return clause.render

/-- The texts of the clauses of some fields. -/
def fieldTexts (c : Coverage) (subsets : Table Subset) (scaling : Scaling) :
    List Field → Except Fault (List String)
  | [] => .ok []
  | f :: r => do
    let first ← c.fieldText subsets scaling f
    let rest ← c.fieldTexts subsets scaling r
    return first :: rest

def expression (c : Coverage) (fields : List String) (subsets : Table Subset)
    (scaling : Scaling) : Except Fault String := do
  (c.checkSubsets subsets.entries).mapError SelectionRefusal.fault
  let fields ← (c.selectedFields fields).mapError SelectionRefusal.fault
  return Text.join "," (← c.fieldTexts subsets scaling fields)

def constraint (c : Coverage) (fields : List String) (subsets : Table Subset)
    (scaling : Scaling) : Except Fault String :=
  (c.expression fields subsets scaling).map Percent.encode

end Coverage

end CoverageAccess
