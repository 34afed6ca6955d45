import CoverageAccess.Fault
import CoverageAccess.Table
import CoverageAccess.Text.Split
/-!
# Routes to datasets

`Routes` file base addresses under stems of coverage identifiers. A coverage is served by the route
whose stem is the longest one that its identifier begins with; its dataset is the base address
followed by the rest of the identifier.
-/

namespace CoverageAccess

/-- Base addresses filed under stems. -/
structure Routes where
  bases : Table String

/-- A route for one coverage: the stem that matches and the address of the dataset. -/
structure Route where
  stem : String
  url : String
  deriving DecidableEq, Repr

/-- The one of two routes with the longer stem; the first if they are equally long. -/
def Route.longer (a b : Route) : Route :=
  if a.stem.length < b.stem.length then b else a

namespace Routes

/-- The routes of a list of stems with their bases. The last base for a stem counts. -/
def ofList (l : List (String × String)) : Routes :=
  ⟨Table.ofList l⟩

/-- The route of a stem, if the identifier begins with it. -/
def route? (id stem base : String) : Option Route :=
  (Text.dropStart? stem.toList id.toList).map fun rest => ⟨stem, base ++ String.ofList rest⟩

/-- The routes whose stem the identifier begins with, in ascending order of the stems. -/
def matching (r : Routes) (id : String) : List Route :=
  r.bases.entries.filterMap fun e => route? id e.1 e.2

/-- The first route of a list that no other one exceeds in length of the stem. -/
def longest : List Route → Option Route
  | [] => none
  | a :: as => some (as.foldl Route.longer a)

def noRoute (id : String) : Fault :=
  .notFound s!"No service is configured for coverage '{id}'"

def resolve (r : Routes) (id : String) : Except Fault Route :=
  match longest (r.matching id) with
  | some route => .ok route
  | none => .error (noRoute id)

def size (r : Routes) : Nat :=
  r.bases.size

theorem longest_eq_none_iff {l : List Route} : longest l = none ↔ l = [] := by
  cases l <;> simp [longest]

end Routes

end CoverageAccess
