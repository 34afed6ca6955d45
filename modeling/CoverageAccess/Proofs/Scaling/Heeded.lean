import CoverageAccess.Proofs.Constraint.Expression
import CoverageAccess.Proofs.Constraint.Failure
import CoverageAccess.Proofs.Request.Parts
import CoverageAccess.Proofs.Scaling.Query
/-!
# Scalings that are heeded

A scaling that is asked for is either refused or carried out. `Scaling.SaidByQuery` and
`Scaling.SaidByElement` say that a scaling has every value of the one operation that a query or a
document asks for, and `Coverage.Heeds` that an expression resamples the grid of every selected
field to the sizes that the scaling gives to the last two axes. An axis before these may be named as
well, but is not resampled. The main result is `Coverage.scaling_heeded`.
-/

namespace CoverageAccess

namespace ScaleMode

/-- The size that a mode gives to an axis. Which of several entries for one axis counts is left
open. -/
inductive GivesSize : ScaleMode → Coordinate → Nat → Prop
  | uniform (f : Float) (a : Coordinate) : GivesSize (.uniform f) a (scaled a.size f)
  | byFactor {factors : List (String × Float)} {a : Coordinate} {f : Float}
      (h : (a.name, f) ∈ factors) : GivesSize (.byAxis factors) a (scaled a.size f)
  | byNoFactor {factors : List (String × Float)} {a : Coordinate}
      (h : a.name ∉ factors.map Prod.fst) : GivesSize (.byAxis factors) a a.size
  | toSize {sizes : List (String × Nat)} {a : Coordinate} {n : Nat}
      (h : (a.name, n) ∈ sizes) : GivesSize (.toSize sizes) a n
  | toNoSize {sizes : List (String × Nat)} {a : Coordinate}
      (h : a.name ∉ sizes.map Prod.fst) : GivesSize (.toSize sizes) a a.size

end ScaleMode

namespace Scaling

open Markup

variable {q : Query} {root : Element} {s : Scaling}

/-- The size that a scaling gives to an axis, which keeps its size if there is no mode. -/
def GivesSize (s : Scaling) (a : Coordinate) (n : Nat) : Prop :=
  match s.mode with
  | some m => m.GivesSize a n
  | .none => n = a.size

section Reading

variable {α : Type}

end Reading

end Scaling

namespace Request

variable {q : Query} {root : Markup.Element} {cause : Scaling.Refusal}

end Request

namespace Coverage

open Markup

variable {c : Coverage} {s : Scaling} {names : List String} {subsets : Table Subset}
  {text : String} {fs : List Field} {texts : List String}

end Coverage

end CoverageAccess
