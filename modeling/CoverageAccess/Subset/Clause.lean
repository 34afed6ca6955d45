import CoverageAccess.Subset.Basic
import CoverageAccess.Time.Units
/-!
# Clauses of subsets

A subset by position becomes a bracket after the variable, `[low:1:high]`; a subset by value becomes
a quoted condition on the coordinate variable, `"low<=variable<=high"`. On a time coordinate the
bounds of a condition that are not numbers are time positions and are first turned into the
coordinate's units.
-/

namespace CoverageAccess

/-- The condition on a variable, in its quotes. -/
def Selection.condition (target : String) : Selection → String
  | .trim low high => s!"\"{low}<={target}<={high}\""
  | .slice point => s!"\"{target}={point}\""

/-- The bracket of positions. A range that is open below starts at zero. -/
def Selection.bracket : Selection → String
  | .trim low high =>
    if low = "*" ∧ high = "*" then "[*]"
    else
      let low := if low = "*" then "0" else low
      s!"[{low}:1:{high}]"
  | .slice point => s!"[{point}]"

namespace Subset

def condition (s : Subset) (target : String) : String :=
  s.selection.condition target

def bracket? (s : Subset) : Option String :=
  if s.byPosition then some s.selection.bracket else none

/-- A bound in the units of a time coordinate. Numbers stay as they are. -/
def boundInUnits (units bound : String) : Except Fault String :=
  if (Number.real? bound).isSome then .ok bound
  else (Time.parsePosition bound).map fun i => Time.formatUnits i units

/-- The selection in the units of a time coordinate. -/
def selectionInUnits (units : String) : Selection → Except Fault Selection
  | .trim low high => do
    let low ← boundInUnits units low
    let high ← boundInUnits units high
    return .trim low high
  | .slice point => (boundInUnits units point).map .slice

/-- The quoted condition on the given time coordinate variable. -/
def timeCondition (s : Subset) (units target : String) : Except Fault String :=
  (selectionInUnits units s.selection).map fun t => t.condition target

end Subset

end CoverageAccess
