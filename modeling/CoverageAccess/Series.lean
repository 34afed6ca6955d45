import CoverageAccess.Box.Relation
import CoverageAccess.Coverage
/-!
# Series of coverages

A `Series` is a named list of coverages. Its envelope spans the boxes of all members that have one.
-/

namespace CoverageAccess

/-- A named list of coverages. -/
structure Series where
  id : String
  members : List Coverage

namespace Series

/-- The identifiers of the members, in order. -/
def memberIds (s : Series) : List String :=
  s.members.map Coverage.id

/-- The least box around `b` and the boxes of a list, one after the other. -/
def hullFrom : Box → List Box → Except Box.Refusal Box
  | b, [] => .ok b
  | b, c :: cs => do hullFrom (← b.union c) cs

/-- The least box around the boxes of a list, if it holds any. -/
def hull : List Box → Except Box.Refusal (Option Box)
  | [] => .ok none
  | b :: bs => (hullFrom b bs).map some

/-- The envelope of the members; those without a box are passed over. -/
def envelope (s : Series) : Except Box.Refusal (Option Box) :=
  hull (s.members.filterMap Coverage.box)

end Series

end CoverageAccess
