import CoverageAccess.Fault
import CoverageAccess.Number.Real
import CoverageAccess.Text.Split
import CoverageAccess.Time.Instant
/-!
# Bounding boxes

A `Box` is an envelope: named axes in order, each with a lower and an upper bound, and perhaps a
period of time and the name of a reference system. Axis names of a box differ from each other;
`Box.ofAxes` checks it, and the other ways to a box go through it. The bounds are not compared with
each other, and any number may be a bound.
-/

namespace CoverageAccess

/-- A named axis with its bounds. -/
structure Axis where
  name : String
  lower : Float
  upper : Float

/-- A period of time. -/
structure Period where
  start : Time.Instant
  finish : Time.Instant
  deriving DecidableEq, Repr

/-- An envelope. -/
structure Box where
  axes : List Axis
  period : Option Period
  crs : Option String

namespace Period

def reversed (start finish : Time.Instant) : Fault :=
  .invalid "TimePeriod" s!"Begin position {start.gml} is after end position {finish.gml}"

def make (start finish : Time.Instant) : Except Fault Period :=
  if finish.lt start then .error (reversed start finish) else .ok ⟨start, finish⟩

def hull (p q : Period) : Period :=
  ⟨p.start.earlier q.start, p.finish.later q.finish⟩

def overlaps (p q : Period) : Bool :=
  p.start.lt q.finish && q.start.lt p.finish

/-- The other period lies inside, and touches neither end. -/
def surrounds (p q : Period) : Bool :=
  p.start.lt q.start && q.finish.lt p.finish

end Period

namespace Axis

def overlaps (a b : Axis) : Bool :=
  a.lower < b.upper && b.lower < a.upper

/-- The other interval lies inside; it may touch the ends. -/
def covers (a b : Axis) : Bool :=
  a.lower ≤ b.lower && b.upper ≤ a.upper

def hull (a b : Axis) : Axis :=
  ⟨a.name, Number.lesser a.lower b.lower, Number.greater a.upper b.upper⟩

/-- Same name and equal bounds; a NaN equals nothing. -/
def same (a b : Axis) : Bool :=
  a.name == b.name && a.lower == b.lower && a.upper == b.upper

end Axis

namespace Box

/-- Why there is no such box. -/
inductive Refusal where
  | repeatedAxis (name : String)
  | corners (labels lower upper : Nat)
  | oddCount (source : String)
  | noNumbers (source : String)
  | number (text : String)
  | labelCount (expected found : Nat)
  | systems (mine theirs : String)
  | axes (mine theirs : List String)
  deriving DecidableEq, Repr

/-- The wording of why there is no such box. -/
def Refusal.text : Refusal → String
  | .repeatedAxis name => s!"Duplicate axis '{name}'"
  | .corners labels lower upper =>
    s!"{labels} axis labels do not match corners of {lower} and {upper} values"
  | .oddCount source => s!"Odd number of coordinate values in '{source}'"
  | .noNumbers source => s!"No coordinate values in '{source}'"
  | .number text => s!"Invalid number '{text}'"
  | .labelCount expected found => s!"Expected {expected} axis labels, got {found}"
  | .systems mine theirs => s!"Bounding boxes have incompatible CRS '{mine}' and '{theirs}'"
  | .axes mine theirs =>
    let mine := Text.join " " mine
    let theirs := Text.join " " theirs
    s!"Bounding boxes have different axes [{mine}] and [{theirs}]"

/-- The fault of a box that is not made. -/
def Refusal.fault (r : Refusal) : Fault :=
  .invalid "BoundingBox" r.text

/-- The names of the axes, in order. -/
def labels (b : Box) : List String :=
  b.axes.map Axis.name

/-- The lower bounds, in order. -/
def lowerCorner (b : Box) : List Float :=
  b.axes.map Axis.lower

/-- The upper bounds, in order. -/
def upperCorner (b : Box) : List Float :=
  b.axes.map Axis.upper

def axis? (b : Box) (name : String) : Option Axis :=
  b.axes.find? fun a => a.name == name

/-- The first name that occurs again, in the order in which the second occurrences stand. -/
def firstRepeated (seen : List String) : List String → Option String
  | [] => none
  | n :: ns => if n ∈ seen then some n else firstRepeated (n :: seen) ns

/-- The box with the given axes, whose names must differ. -/
def ofAxes (axes : List Axis) (crs : Option String) : Except Refusal Box :=
  match firstRepeated [] (axes.map Axis.name) with
  | some name => .error (.repeatedAxis name)
  | none => .ok ⟨axes, none, crs⟩

def zipAxes (labels : List String) (lower upper : List Float) : List Axis :=
  (labels.zip (lower.zip upper)).map fun e => ⟨e.1, e.2.1, e.2.2⟩

/-- The box with the given axis names and corners, which must be equally many. -/
def ofCorners (labels : List String) (lower upper : List Float) (crs : Option String) :
    Except Refusal Box :=
  if labels.length = lower.length ∧ labels.length = upper.length then
    ofAxes (zipAxes labels lower upper) crs
  else .error (.corners labels.length lower.length upper.length)

/-- The box with other axis names, in order. -/
def withLabels (b : Box) (labels : List String) : Except Refusal Box :=
  if labels.length = b.axes.length then do
    let named ← ofAxes ((b.axes.zip labels).map fun e => { e.1 with name := e.2 }) b.crs
    return { named with period := b.period }
  else .error (.labelCount b.axes.length labels.length)

def withPeriod (b : Box) (p : Period) : Box :=
  { b with period := some p }

/-- Same axes in the same order, same period and same reference system; a NaN equals nothing. -/
def same (b c : Box) : Bool :=
  b.axes.length == c.axes.length && (b.axes.zip c.axes).all (fun e => e.1.same e.2) &&
    b.period == c.period && b.crs == c.crs

theorem firstRepeated_eq_none_iff {seen names : List String} :
    firstRepeated seen names = none ↔ names.Nodup ∧ ∀ n ∈ names, n ∉ seen := by
  induction names generalizing seen with
  | nil => simp [firstRepeated]
  | cons n ns ih =>
    by_cases h : n ∈ seen
    · simp [firstRepeated, h]
    · simp only [firstRepeated, h, if_false, ih, List.nodup_cons, List.mem_cons]
      grind

/-- A box is made of axes exactly if their names differ. -/
theorem ofAxes_eq_ok_iff {axes : List Axis} {crs : Option String} {b : Box} :
    ofAxes axes crs = .ok b ↔ (axes.map Axis.name).Nodup ∧ b = ⟨axes, none, crs⟩ := by
  have h := @firstRepeated_eq_none_iff [] (axes.map Axis.name)
  unfold ofAxes
  split
  next n hn => simp_all
  next hn => simp_all [eq_comm]

end Box

end CoverageAccess
