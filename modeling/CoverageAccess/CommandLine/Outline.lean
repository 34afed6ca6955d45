import CoverageAccess.Coverage
import CoverageAccess.Text.Quoted
/-!
# Outlines

An `Outline` is a value as it is printed for people to read: records, lists and wrapped values over
several indented lines, each member with a comma after it. `Coverage.outline` is the outline of a
description.
-/

namespace CoverageAccess

/-- A value to be printed over several lines. -/
inductive Outline where
  /-- What stands on one line. -/
  | word (s : String)
  | list (items : List Outline)
  /-- A value in parentheses after a name. -/
  | wrapped (name : String) (value : Outline)
  /-- Named members in braces after a name. -/
  | record (name : String) (members : List (String × Outline))

namespace Outline

def indent (depth : Nat) : String :=
  String.ofList (List.replicate (4 * depth) ' ')

def framed (depth : Nat) (opening members closing : String) : String :=
  opening ++ "\n" ++ members ++ indent depth ++ closing

def member (depth : Nat) (text : String) : String :=
  indent depth ++ text ++ ",\n"

mutual

/-- The text of a value whose first line is already indented to the given depth. -/
def render (depth : Nat) : Outline → String
  | .word s => s
  | .list [] => "[]"
  | .list (item :: items) =>
    framed depth "[" (renderItem (depth + 1) item ++ renderItems (depth + 1) items) "]"
  | .wrapped name value => framed depth (name ++ "(") (renderItem (depth + 1) value) ")"
  | .record name members =>
    framed depth (name ++ " \x7b") (renderMembers (depth + 1) members) "\x7d"

def renderItem (depth : Nat) (item : Outline) : String :=
  member depth (render depth item)

def renderItems (depth : Nat) : List Outline → String
  | [] => ""
  | item :: items => renderItem depth item ++ renderItems depth items

def renderMembers (depth : Nat) : List (String × Outline) → String
  | [] => ""
  | (name, value) :: rest =>
    member depth (name ++ ": " ++ render depth value) ++ renderMembers depth rest

end

def text (s : String) : Outline :=
  .word (Text.described s)

def real (x : Float) : Outline :=
  .word (Number.described x)

def option (f : α → Outline) : Option α → Outline
  | some a => .wrapped "Some" (f a)
  | none => .word "None"

end Outline

open Outline

def Role.outline : Role → Outline
  | .latitude => .word "Latitude"
  | .longitude => .word "Longitude"
  | .time => .word "Time"

def Coordinate.outline (c : Coordinate) : Outline :=
  .record "DomainCoordinate"
    [("name", text c.name), ("backend_variable_id", text c.variableId), ("units", text c.units),
      ("size", .word (Number.ofNatural c.size)), ("role", option Role.outline c.role)]

def Field.outline (f : Field) : Outline :=
  .record "Field"
    [("name", text f.name), ("backend_variable_id", text f.variableId),
      ("description", option text f.description), ("units", option text f.units)]

def Axis.outline (a : Axis) : Outline :=
  .record "CoordinateDimension"
    [("name", text a.name), ("min", real a.lower), ("max", real a.upper)]

def Period.outline (p : Period) : Outline :=
  .record "TimePeriod"
    [("start", .word p.start.described), ("end", .word p.finish.described)]

def Box.outline (b : Box) : Outline :=
  .record "BoundingBox"
    [("dimensions", .list (b.axes.map Axis.outline)),
      ("time_period", option Period.outline b.period), ("crs", option text b.crs)]

/-- The outline of a coverage. -/
def Coverage.outline (c : Coverage) : Outline :=
  .record "CoverageDescription"
    [("coverage_id", text c.id),
      ("domain_coordinates", .list (c.coordinates.map Coordinate.outline)),
      ("fields", .list (c.fields.map Field.outline)), ("native_format", text c.nativeFormat),
      ("bounding_box", option Box.outline c.box), ("dataset_url", option text c.datasetUrl)]

end CoverageAccess
