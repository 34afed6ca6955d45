import CoverageAccess.Markup.Document
import CoverageAccess.Subset.Basic
/-!
# Subsets as elements

`Subset.ofElement` reads a `DimensionTrim` or `DimensionSlice` element, and `Subset.toNode` writes
one. A wildcard bound of a trim is left out in writing and put in for an absent one in reading.
-/

namespace CoverageAccess

namespace Subset

open Markup

def dimensionOf (e : Element) : Except Refusal String :=
  match e.childText? "Dimension" with
  | some d => if d = "" then .error (.noDimensionChild e.name) else .ok d
  | none => .error (.noDimensionChild e.name)

/-- The subset of an element. -/
def ofElement (e : Element) : Except Refusal Subset :=
  if e.name = "DimensionTrim" then do
    let dimension ← dimensionOf e
    trim dimension ((e.childText? "TrimLow").getD wildcard)
      ((e.childText? "TrimHigh").getD wildcard)
  else if e.name = "DimensionSlice" then
    match e.childText? "SlicePoint" with
    | none => .error .noPoint
    | some point => do slice (← dimensionOf e) point
  else .error (.element e.name)

/-- A bound of a trim as an element, unless it is the wildcard. -/
def boundNodes (tag bound : String) : List Node :=
  if bound = wildcard then [] else [Node.leaf tag bound]

/-- The element of a subset. -/
def toNode (s : Subset) : Node :=
  let dimension := Node.leaf "wcs:Dimension" s.dimension
  match s.selection with
  | .trim low high =>
    .element "wcs:DimensionTrim" []
      (dimension :: boundNodes "wcs:TrimLow" low ++ boundNodes "wcs:TrimHigh" high)
  | .slice point =>
    .element "wcs:DimensionSlice" [] [dimension, Node.leaf "wcs:SlicePoint" point]

end Subset

end CoverageAccess
