import CoverageAccess.Coverage
import CoverageAccess.Number.Real
/-!
# Scaling

A request may ask for its coverage at another resolution. A `ScaleMode` says how: by one factor, by
factors for single axes, or to sizes for single axes. A `Scaling` is a mode together with an output
reference system and an interpolation method, each of which may be absent; it is active if any of
them is there.
-/

namespace CoverageAccess

/-- How the new sizes of the axes are found. -/
inductive ScaleMode where
  /-- One factor for every axis. -/
  | uniform (factor : Float)
  /-- Factors for the named axes. -/
  | byAxis (factors : List (String × Float))
  /-- Sizes for the named axes. -/
  | toSize (sizes : List (String × Nat))

/-- What a request says about resampling. -/
structure Scaling where
  mode : Option ScaleMode
  outputCrs : Option String
  interpolation : Option String

namespace ScaleMode

/-- The axes that the mode names, in order. -/
def axes : ScaleMode → List String
  | .uniform _ => []
  | .byAxis factors => factors.map Prod.fst
  | .toSize sizes => sizes.map Prod.fst

def valueFor? (entries : List (String × α)) (axis : String) : Option α :=
  (entries.find? fun e => e.1 == axis).map Prod.snd

/-- A size multiplied by a factor, without the part after the point. -/
def scaled (size : Nat) (factor : Float) : Nat :=
  Number.toSize (Number.ofSize size * factor)

/-- The new size of an axis. An axis that the mode does not name keeps its size. -/
def sizeOf (m : ScaleMode) (c : Coordinate) : Nat :=
  match m with
  | .uniform factor => scaled c.size factor
  | .byAxis factors => ((valueFor? factors c.name).map (scaled c.size)).getD c.size
  | .toSize sizes => (valueFor? sizes c.name).getD c.size

/-- Same kind and equal values; a NaN equals nothing. -/
def same : ScaleMode → ScaleMode → Bool
  | .uniform f, .uniform g => f == g
  | .byAxis fs, .byAxis gs =>
    fs.length == gs.length && (fs.zip gs).all fun e => e.1.1 == e.2.1 && e.1.2 == e.2.2
  | .toSize ns, .toSize ms => ns == ms
  | _, _ => false

end ScaleMode

namespace Scaling

def none : Scaling := ⟨.none, .none, .none⟩

def isActive (s : Scaling) : Bool :=
  s.mode.isSome || s.outputCrs.isSome || s.interpolation.isSome

/-- Equal parts; a NaN equals nothing. -/
def same (s t : Scaling) : Bool :=
  (match s.mode, t.mode with
    | .none, .none => true
    | some m, some n => m.same n
    | _, _ => false) &&
    s.outputCrs == t.outputCrs && s.interpolation == t.interpolation

/-- Why a scaling is refused. -/
inductive Refusal where
  | severalModes
  | extent (locator : String)
  | perAxisForm (entry : String)
  | perAxis (locator : String)
  | factor (locator text : String)
  | size (locator text : String)
  | axisList (locator text : String)
  | absent (locator owner : String)
  | fewAxes (count : Nat)
  | unknownAxis (axis : String) (valid : List String)
  deriving DecidableEq, Repr

/-- The fault of a scaling that is refused. -/
def Refusal.fault : Refusal → Fault
  | .severalModes => .invalid "scaling" "Only a single Scaling operation may be requested."
  | .extent locator => .unsupported locator "Scaling by extent is not supported"
  | .perAxisForm entry =>
    .invalid "INTERPOLATIONPERAXIS" s!"'{entry}' must have the form axis,method"
  | .perAxis locator => .unsupported locator "Per-axis interpolation is not supported"
  | .factor locator text =>
    .invalid locator s!"Scale factor '{text}' must be a positive number"
  | .size locator text =>
    .invalid locator s!"Target size '{text}' must be a non-negative integer"
  | .axisList locator text =>
    .invalid locator s!"'{text}' must have the form axis(value),axis(value),..."
  | .absent locator owner =>
    let article := if locator = "axis" then "an" else "a"
    .missing locator s!"{owner} needs {article} {locator}"
  | .fewAxes count =>
    .internal s!"Scaling needs at least two domain coordinates, coverage has {count}"
  | .unknownAxis axis valid =>
    let valid := Text.join ", " valid
    .invalid "scaling" s!"Unknown scale axis '{axis}'. Valid axes are: {valid}"

/-- A factor: a positive number. -/
def factor (locator text : String) : Except Refusal Float :=
  match Number.real? (Text.trim text) with
  | some f => if f.isFinite && 0 < f then .ok f else .error (.factor locator text)
  | .none => .error (.factor locator text)

/-- A size: a natural number of 64 bits. -/
def size (locator text : String) : Except Refusal Nat :=
  match Number.unsigned? Number.maxSize (Text.trim text).toList with
  | some n => .ok n
  | .none => .error (.size locator text)

/-- The pairs with their values read one after the other. -/
def readValues (read : String → Except Refusal α) :
    List (String × String) → Except Refusal (List (String × α))
  | [] => .ok []
  | (axis, text) :: r => do
    let value ← read text
    let rest ← readValues read r
    return (axis, value) :: rest

/-- The last two axes, which are the ones that can be resampled. -/
def gridAxes? : List Coordinate → Option (Coordinate × Coordinate)
  | [] | [_] => .none
  | [y, x] => some (y, x)
  | _ :: c :: d :: r => gridAxes? (c :: d :: r)

def sizeOf (s : Scaling) (c : Coordinate) : Nat :=
  match s.mode with
  | some m => m.sizeOf c
  | .none => c.size

/-- The axes that the mode names, in order. -/
def axes (s : Scaling) : List String :=
  match s.mode with
  | some m => m.axes
  | .none => []

/-- The clause in a call that resamples its last two axes. -/
def wrap (s : Scaling) (clause : String) (coordinates : List Coordinate) :
    Except Refusal String :=
  match gridAxes? coordinates with
  | .none => .error (.fewAxes coordinates.length)
  | some (y, x) =>
    let names := coordinates.map Coordinate.name
    match s.axes.find? fun a => a ∉ names with
    | some a => .error (.unknownAxis a names)
    | .none =>
      let tail := (s.outputCrs.toList ++ s.interpolation.toList).map fun t => "," ++ t
      .ok (s!"scale_grid({clause},{Number.ofNatural (s.sizeOf y)},{Number.ofNatural (s.sizeOf x)}"
        ++ Text.join "" tail ++ ")")

end Scaling

end CoverageAccess
