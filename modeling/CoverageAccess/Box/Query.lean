import CoverageAccess.Box.Basic
/-!
# Boxes in queries

In a query a box is a list of numbers between commas: all lower bounds, then all upper bounds, and
the name of the reference system at the end if the list has an odd number of parts. The axes have no
names there; they are called `axis0`, `axis1` and so on.
-/

namespace CoverageAccess

namespace Box

/-- The parts of the list: numbers, and the reference system when their count is odd. -/
def queryParts (s : String) : List String × Option String :=
  let parts := (Text.fields ',' s).map Text.trim
  if parts.length % 2 = 1 then (parts.dropLast, parts.getLast?) else (parts, none)

/-- The numbers of a list of texts. -/
def queryNumbers : List String → Except Refusal (List Float)
  | [] => .ok []
  | p :: ps =>
    match Number.real? p with
    | some x => (queryNumbers ps).map (x :: ·)
    | none => .error (.number p)

/-- The names of `n` axes without names. -/
def numberedLabels (n : Nat) : List String :=
  (List.range n).map fun i => "axis" ++ Number.ofNatural i

/-- The box of a text in a query. -/
def ofQuery (s : String) : Except Refusal Box :=
  let (parts, crs) := queryParts s
  if (crs.bind Number.real?).isSome then .error (.oddCount s)
  else if parts = [] then .error (.noNumbers s)
  else do
    let values ← queryNumbers parts
    let n := values.length / 2
    ofAxes (zipAxes (numberedLabels n) (values.take n) (values.drop n)) crs

end Box

end CoverageAccess
