import CoverageAccess.Markup.Document
import CoverageAccess.Scaling.Basic
/-!
# Scaling in documents

The elements that speak of resampling may stand at any depth of a request document.
`Scaling.ofElement` reads them, and `Scaling.toNodes` writes them: the mode, then the interpolation
method, then the output reference system.
-/

namespace CoverageAccess

namespace Scaling

open Markup

def modeElements : List String :=
  ["ScaleByFactor", "ScaleAxesByFactor", "ScaleToSize", "ScaleToExtent"]

def requiredText (e : Element) (name : String) : Except Refusal String :=
  match e.childText? name with
  | some s => .ok s
  | .none => .error (.absent name e.name)

/-- An axis with its value, which stands in the child `child`. -/
def axisEntry (child : String) (read : String → Except Refusal α) (e : Element) :
    Except Refusal (String × α) := do
  let axis ← requiredText e "axis"
  let value ← read (← requiredText e child)
  return (axis, value)

/-- The mode of a document that holds at most one of the elements with a mode. -/
def elementMode (root : Element) : Except Refusal (Option ScaleMode) :=
  match root.descendants "ScaleByFactor", root.descendants "ScaleAxesByFactor",
    root.descendants "ScaleToSize" with
  | e :: _, _, _ => do
    let f ← factor "scaleFactor" (← requiredText e "scaleFactor")
    return some (.uniform f)
  | _, e :: _, _ => do
    let read := axisEntry "scaleFactor" (factor "scaleFactor")
    return some (.byAxis (← (e.childrenNamed "ScaleAxis").mapM read))
  | _, _, e :: _ => do
    let read := axisEntry "targetSize" (size "targetSize")
    return some (.toSize (← (e.childrenNamed "TargetAxisSize").mapM read))
  | [], [], [] => .ok .none

/-- The text of the first descendant of that name, if anything is left of it after trimming. -/
def firstText? (root : Element) (name : String) : Option String :=
  match root.descendants name with
  | [] => .none
  | e :: _ => (some (Text.trim e.text)).filter fun s => s != ""

/-- What a request document says about resampling. -/
def ofElement (root : Element) : Except Refusal Scaling :=
  if 1 < (modeElements.flatMap fun n => root.descendants n).length then .error .severalModes
  else if root.descendants "ScaleToExtent" ≠ [] then .error (.extent "ScaleToExtent")
  else if root.descendants "InterpolationPerAxis" ≠ [] then
    .error (.perAxis "InterpolationPerAxis")
  else do
    let mode ← elementMode root
    return ⟨mode, firstText? root "outputCrs", firstText? root "globalInterpolation"⟩

def axisNode (tag child : String) (value : α → String) (e : String × α) : Node :=
  .element tag [] [.leaf "scal:axis" e.1, .leaf child (value e.2)]

end Scaling

open Markup in
/-- The element of a mode. -/
def ScaleMode.toNode : ScaleMode → Node
  | .uniform f => .element "scal:ScaleByFactor" [] [.leaf "scal:scaleFactor" (Number.plain f)]
  | .byAxis factors =>
    .element "scal:ScaleAxesByFactor" []
      (factors.map (Scaling.axisNode "scal:ScaleAxis" "scal:scaleFactor" Number.plain))
  | .toSize sizes =>
    .element "scal:ScaleToSize" []
      (sizes.map (Scaling.axisNode "scal:TargetAxisSize" "scal:targetSize" Number.ofNatural))

open Markup in
/-- The elements of a scaling, in order. -/
def Scaling.toNodes (s : Scaling) : List Node :=
  s.mode.toList.map ScaleMode.toNode ++
    s.interpolation.toList.map (fun m =>
      .element "int:Interpolation" [] [.leaf "int:globalInterpolation" m]) ++
    s.outputCrs.toList.map fun c => .leaf "crs:outputCrs" c

end CoverageAccess
