import CoverageAccess.Dataset.Grid
import CoverageAccess.Time.Position
import CoverageAccess.Time.Units
/-!
# The extent of a dataset

Each bound of an axis is taken on its own: from the attribute of the dataset that speaks of the
axis' role, or else from the template. Time is no axis of the box. Its period comes from the
attributes with the range of dates, or, when one of them is absent, from the template of the first
time axis. A period that cannot be read is left out.
-/

namespace CoverageAccess

namespace Dataset

/-- The attributes that hold the bounds of an axis, if the axis belongs into the box. An axis
without a role has attributes without a name. -/
def boundAttributes : Option Role → Option (String × String)
  | some .latitude => some ("SouthernmostLatitude", "NorthernmostLatitude")
  | some .longitude => some ("WesternmostLongitude", "EasternmostLongitude")
  | some .time => none
  | none => some ("", "")

def realAttribute? (d : Dataset) (name : String) : Option Float :=
  (d.attributes.get? name).bind fun s => Number.real? (Text.trim s)

/-- The axis of the box for an axis of the grid, if both of its bounds are known. -/
def boxAxis? (d : Dataset) (a : GridAxis) : Option Axis := do
  let (low, high) ← boundAttributes a.coordinate.role
  let lower ← (d.realAttribute? low).or a.template.lower
  let upper ← (d.realAttribute? high).or a.template.upper
  return ⟨a.coordinate.name, lower, upper⟩

/-- The position that the attributes for a date and a time of day give. -/
def rangePosition? (d : Dataset) (date time : String) : Option String :=
  (d.attributes.get? date).map fun day =>
    match d.attributes.get? time with
    | some hour => s!"{Text.trim day}T{Text.trim hour}Z"
    | none => Text.trim day

def rangePositions? (d : Dataset) : Option (String × String) := do
  let first ← d.rangePosition? "RangeBeginningDate" "RangeBeginningTime"
  let last ← d.rangePosition? "RangeEndingDate" "RangeEndingTime"
  return (first, last)

def periodBetween (first last : String) : Except Fault Period := do
  let start ← Time.parsePosition first
  let finish ← Time.parsePosition last
  Period.make start finish

/-- The period of the template of the first time axis, in the units of the axis. -/
def templatePeriod? (axes : List GridAxis) : Option Period := do
  let a ← axes.find? fun a => a.coordinate.isTime
  let start ← Time.instantOfUnits? (← a.template.lower) a.coordinate.units
  let finish ← Time.instantOfUnits? (← a.template.upper) a.coordinate.units
  (Period.make start finish).toOption

/-- The period of a dataset, if it can be read. -/
def period? (d : Dataset) (axes : List GridAxis) : Option Period :=
  match d.rangePositions? with
  | some (first, last) => (periodBetween first last).toOption
  | none => templatePeriod? axes

/-- The box of a dataset, unless no bounds are known. -/
def extent (d : Dataset) (axes : List GridAxis) (crs : Option String) :
    Except Box.Refusal (Option Box) :=
  match axes.filterMap d.boxAxis? with
  | [] => .ok none
  | known => do
    let b ← Box.ofAxes known crs
    return some { b with period := d.period? axes }

end Dataset

end CoverageAccess
