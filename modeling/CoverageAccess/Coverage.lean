import CoverageAccess.Box.Basic
/-!
# Coverages

A `Coverage` describes a gridded dataset: its domain coordinates, in the order in which the backend
stores the axes, its fields, and what else the service says about it. Coordinate names differ from
each other, and so do field names; `Coverage.make` checks both.
-/

namespace CoverageAccess

/-- What a coordinate measures, when that is known. -/
inductive Role where
  | latitude
  | longitude
  | time
  deriving DecidableEq, Repr

def Role.name : Role → String
  | .latitude => "latitude"
  | .longitude => "longitude"
  | .time => "time"

def Role.ofName? (s : String) : Option Role :=
  [Role.latitude, .longitude, .time].find? fun r => r.name == s

/-- One axis of a grid. -/
structure Coordinate where
  /-- The name in requests. -/
  name : String
  /-- The name of the coordinate variable in the backend dataset. -/
  variableId : String
  units : String
  size : Nat
  role : Option Role
  deriving DecidableEq, Repr

def Coordinate.isTime (c : Coordinate) : Bool :=
  c.role == some .time

/-- A data variable of a grid. -/
structure Field where
  /-- The name in requests. -/
  name : String
  /-- The name of the variable in the backend dataset. -/
  variableId : String
  description : Option String
  units : Option String
  deriving DecidableEq, Repr

/-- The description of a coverage. -/
structure Coverage where
  id : String
  /-- The axes in storage order. -/
  coordinates : List Coordinate
  fields : List Field
  nativeFormat : String
  box : Option Box
  datasetUrl : Option String

namespace Coverage

/-- Why there is no such coverage. -/
inductive Refusal where
  | repeatedCoordinate (coverage name : String)
  | repeatedField (coverage name : String)
  deriving DecidableEq, Repr

/-- The fault of a coverage that is not made. -/
def Refusal.fault : Refusal → Fault
  | .repeatedCoordinate coverage name =>
    .internal s!"Coverage '{coverage}' declares domain coordinate '{name}' twice"
  | .repeatedField coverage name =>
    .internal s!"Coverage '{coverage}' declares field '{name}' twice"

/-- The coverage with the given axes and fields, whose names must differ. -/
def make (id : String) (coordinates : List Coordinate) (fields : List Field)
    (nativeFormat : String) : Except Refusal Coverage :=
  match Box.firstRepeated [] (coordinates.map Coordinate.name),
    Box.firstRepeated [] (fields.map Field.name) with
  | some name, _ => .error (.repeatedCoordinate id name)
  | none, some name => .error (.repeatedField id name)
  | none, none => .ok ⟨id, coordinates, fields, nativeFormat, none, none⟩

def coordinate? (c : Coverage) (name : String) : Option Coordinate :=
  c.coordinates.find? fun d => d.name == name

def field? (c : Coverage) (name : String) : Option Field :=
  c.fields.find? fun f => f.name == name

def coordinateNames (c : Coverage) : List String :=
  c.coordinates.map Coordinate.name

def fieldNames (c : Coverage) : List String :=
  c.fields.map Field.name

/-- A coverage is made exactly if its names differ. -/
theorem make_eq_ok_iff {id format : String} {cs : List Coordinate} {fs : List Field}
    {c : Coverage} :
    make id cs fs format = .ok c ↔
      (cs.map Coordinate.name).Nodup ∧ (fs.map Field.name).Nodup ∧
        c = ⟨id, cs, fs, format, none, none⟩ := by
  have hc := @Box.firstRepeated_eq_none_iff [] (cs.map Coordinate.name)
  have hf := @Box.firstRepeated_eq_none_iff [] (fs.map Field.name)
  unfold make
  split
  next h => simp_all
  next h h' => simp_all
  next h h' => simp_all [eq_comm]

end Coverage

end CoverageAccess
