import CoverageAccess.Service
import CoverageAccess.Settings.Value
/-!
# Coordinates, fields and services in settings

The readers of the records that describe axes, fields and services. A reader answers nothing if a
required field is missing or a value is of the wrong kind.
-/

namespace CoverageAccess

namespace Settings

/-- The names of the roles, in order. -/
def roleNames : List String :=
  [Role.latitude, .longitude, .time].map Role.name

/-- A role by its name; in a strict reading also a map with the name as its only key, under which
there is nothing but a value of class `vacant`. -/
def role? (r : Reading) (vacant : Value → Bool) : Value → Option Role
  | .map [(k, v)] =>
    if r = .strict ∧ vacant v then (k.name? r roleNames).bind Role.ofName? else none
  | v => (v.text? r).bind Role.ofName?

/-- The fields of a coordinate, in order. -/
def coordinateFields : List String :=
  ["name", "backend_variable_id", "units", "size", "role"]

/-- The coordinate of a record's entries. -/
def coordinateOf? (r : Reading) (vacant : Value → Bool) (entries : List (String × Value)) :
    Option Coordinate := do
  let name ← required entries "name" (Value.text? r)
  let variableId ← required entries "backend_variable_id" (Value.text? r)
  let units ← defaulted entries "units" "" (Value.text? r)
  let size ← required entries "size" (Value.natural? r)
  let role ← optional entries "role" (role? r vacant)
  return { name, variableId, units, size, role }

def coordinate? (r : Reading) (v : Value) : Option Coordinate :=
  (v.record? r coordinateFields).bind (coordinateOf? r Value.isNull)

/-- The fields of a field, in order. -/
def fieldFields : List String :=
  ["name", "backend_variable_id", "description", "units"]

/-- The field of a record. -/
def field? (r : Reading) (v : Value) : Option Field := do
  let entries ← v.record? r fieldFields
  let name ← required entries "name" (Value.text? r)
  let variableId ← required entries "backend_variable_id" (Value.text? r)
  let description ← optional entries "description" (Value.text? r)
  let units ← optional entries "units" (Value.text? r)
  return { name, variableId, description, units }

/-- The value stands for nothing, or is a map without entries. -/
def isVacant : Value → Bool
  | .map [] => true
  | v => v.isNull

/-- The template of a record. Its fields are those of a coordinate and the two bounds. It is always
written as a map, whose keys give the names themselves. -/
def template? (r : Reading) : Value → Option Template
  | .map m => do
    let entries ← (Value.named? r [] m).bind (Value.fields? (coordinateFields ++ ["min", "max"]))
    let lower ← optional entries "min" (Value.real? r)
    let upper ← optional entries "max" (Value.real? r)
    let coordinate ← coordinateOf? r isVacant entries
    return { coordinate, lower, upper }
  | _ => none

/-- The fields of a service, in order. -/
def serviceFields : List String :=
  ["prefix", "name", "href", "srs", "native_format", "domain_coordinates"]

/-- The service of a record. -/
def service? (r : Reading) (v : Value) : Option Service := do
  let entries ← v.record? r serviceFields
  let stem ← required entries "prefix" (Value.text? r)
  let name ← optional entries "name" (Value.text? r)
  let base ← required entries "href" (Value.text? r)
  let crs ← optional entries "srs" (Value.text? r)
  let nativeFormat ← defaulted entries "native_format" Service.defaultFormat (Value.text? r)
  let templates ← required entries "domain_coordinates" (Value.list? r (template? r))
  return { stem, name, base, crs, nativeFormat, templates }

end Settings

end CoverageAccess
