import CoverageAccess.Fault
import CoverageAccess.Number.Integer
import CoverageAccess.Text.Split
/-!
# Subsets

A `Subset` restricts one dimension of a coverage: to a range between two bounds (a trim), or to one
point (a slice). Its bounds are texts without quotes or blanks around them. A subset goes by
position if its bounds are array positions or the wildcard, and by value otherwise; the two kinds of
bounds do not mix.

The constructors `trim`, `slice`, `valueTrim` and `valueSlice` take bounds as the client wrote them.
-/

namespace CoverageAccess

/-- What a subset keeps of its dimension. -/
inductive Selection where
  | trim (low high : String)
  | slice (point : String)
  deriving DecidableEq, Repr

/-- A restriction of one dimension. -/
structure Subset where
  dimension : String
  selection : Selection
  /-- The bounds are array positions. -/
  byPosition : Bool
  deriving DecidableEq, Repr

/-- The bounds of a selection, in order. -/
def Selection.bounds : Selection → List String
  | .trim low high => [low, high]
  | .slice point => [point]

namespace Subset

def wildcard : String := "*"

def isMargin (c : Char) : Bool :=
  Text.isLineBlank c || c == '"' || c == '\''

def clean (bound : String) : String :=
  String.ofList (Text.trimBy isMargin bound.toList)

/-- The bound is the wildcard or an integer of 64 bits. -/
def isPositionLike (bound : String) : Bool :=
  bound == wildcard || (Number.signed? 64 bound.toList).isSome

/-- Why there is no such subset. -/
inductive Refusal where
  | emptyBound (dimension : String)
  | quoteInBound (bound : String)
  | wildcardBound (dimension : String)
  | mixedBounds (dimension position value : String)
  | form (source : String)
  | noDimension (source : String)
  | textAfter (source : String)
  | noDimensionChild (name : String)
  | noPoint
  | element (name : String)
  deriving DecidableEq, Repr

/-- The fault of a subset that is not made. -/
def Refusal.fault : Refusal → Fault
  | .emptyBound dimension =>
    .invalid "subset" s!"Empty subset bound for dimension '{dimension}'"
  | .quoteInBound bound => .invalid "subset" s!"Illegal character in subset bound '{bound}'"
  | .wildcardBound dimension =>
    .invalid "subset"
      s!"Dimension '{dimension}': wildcard bounds are only valid for array index subsets"
  | .mixedBounds dimension position value =>
    .invalid "subset"
      s!"Dimension '{dimension}': cannot mix array index ({position}) with value based ({value}) subset bounds"
  | .form source =>
    .invalid "subset" s!"Subset '{source}' must have the form dim(low,high) or dim(point)"
  | .noDimension source => .invalid "subset" s!"Subset '{source}' has no dimension name"
  | .textAfter source => .invalid "subset" s!"Unexpected text after ')' in subset '{source}'"
  | .noDimensionChild name => .missing name s!"{name} must have a Dimension child"
  | .noPoint => .missing "SlicePoint" "DimensionSlice must have a SlicePoint child"
  | .element name =>
    .invalid "subset"
      s!"Unrecognized subset element '{name}', expected DimensionTrim or DimensionSlice"

/-- A cleaned bound: something is left of it, and no double quote. -/
def checked (dimension bound : String) : Except Refusal Unit :=
  if bound = "" then .error (.emptyBound dimension)
  else if Text.mentions '"' bound then .error (.quoteInBound bound)
  else .ok ()

/-- A bound of a subset by value is not the wildcard. -/
def checkedValue (dimension bound : String) : Except Refusal Unit := do
  checked dimension bound
  if bound = wildcard then .error (.wildcardBound dimension) else .ok ()

/-- The range between two bounds, by position or by value as both of them demand. -/
def trim (dimension low high : String) : Except Refusal Subset := do
  let low := clean low
  let high := clean high
  checked dimension low
  checked dimension high
  match isPositionLike low, isPositionLike high with
  | true, true => return ⟨dimension, .trim low high, true⟩
  | false, false => return ⟨dimension, .trim low high, false⟩
  | true, false => .error (.mixedBounds dimension low high)
  | false, true => .error (.mixedBounds dimension high low)

/-- One point, by position or by value as it demands. -/
def slice (dimension point : String) : Except Refusal Subset := do
  let point := clean point
  checked dimension point
  return ⟨dimension, .slice point, isPositionLike point⟩

/-- The range between two values, even if they look like positions. -/
def valueTrim (dimension low high : String) : Except Refusal Subset := do
  let low := clean low
  let high := clean high
  checkedValue dimension low
  checkedValue dimension high
  return ⟨dimension, .trim low high, false⟩

/-- One value, even if it looks like a position. -/
def valueSlice (dimension point : String) : Except Refusal Subset := do
  let point := clean point
  checkedValue dimension point
  return ⟨dimension, .slice point, false⟩

def byValue (s : Subset) : Bool :=
  !s.byPosition

theorem checked_eq_ok_iff {dimension bound : String} :
    checked dimension bound = .ok () ↔ bound ≠ "" ∧ Text.mentions '"' bound = false := by
  unfold checked
  split
  · simp_all
  · split <;> simp_all

end Subset

end CoverageAccess
