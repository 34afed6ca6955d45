import CoverageAccess.Subset.Basic
/-!
# Subsets in queries

In a query a subset is `dimension(low,high)` or `dimension(point)`. The dimension ends at the first
opening parenthesis, the bounds at the last closing one; the first comma between them divides a
range.
-/

namespace CoverageAccess

namespace Subset

/-- The dimension, the text between the parentheses, and what follows, of a text of the form
`dimension(…)…`. -/
def queryParts? (s : List Char) : Option (List Char × List Char × List Char) := do
  let (dimension, rest) ← Text.cut? (· == '(') s
  let (inner, tail) ← Text.cutLast? (· == ')') rest
  return (dimension, inner, tail)

/-- The subset of a text in a query. -/
def ofQuery (s : String) : Except Refusal Subset :=
  match queryParts? s.toList with
  | none => .error (.form s)
  | some (dimension, inner, tail) =>
    let dimension := Text.trim (String.ofList dimension)
    if dimension = "" then .error (.noDimension s)
    else if !tail.all Text.isBlank then .error (.textAfter s)
    else
      match Text.cut? (· == ',') inner with
      | some (low, high) => trim dimension (String.ofList low) (String.ofList high)
      | none => slice dimension (String.ofList inner)

def toQuery (s : Subset) : String :=
  match s.selection with
  | .trim low high => s!"{s.dimension}({low},{high})"
  | .slice point => s!"{s.dimension}({point})"

end Subset

end CoverageAccess
