import CoverageAccess.Fault
import CoverageAccess.Markup.Element
import CoverageAccess.Number.Integer
import CoverageAccess.Table
import CoverageAccess.Text.Split
/-!
# Dataset metadata

The metadata of a dataset are a document that declares its dimensions, its variables and their
attributes. `Dataset.ofElement` reads the root of such a document. An attribute has the first of its
values; the members of a container count as attributes of its owner. Of several attributes with one
name the last one counts.
-/

namespace CoverageAccess

/-- A variable of a dataset. -/
structure Variable where
  name : String
  /-- The name of its atomic type. -/
  type : String
  /-- The names of its dimensions in storage order. -/
  dimensions : List String
  attributes : Table String

/-- The metadata of a dataset. -/
structure Dataset where
  name : String
  /-- The sizes of the dimensions by their names. -/
  dimensions : Table Nat
  /-- The variables in document order. -/
  contents : List Variable
  /-- The attributes of the dataset as a whole. -/
  attributes : Table String

namespace Dataset

open Markup

/-- The names of the atomic types, which are also the names of the elements of variables. -/
def atomicTypes : List String :=
  ["Byte", "Char", "Int8", "UInt8", "Int16", "UInt16", "Int32", "UInt32", "Int64", "UInt64",
    "Float32", "Float64", "String", "URL"]

mutual

/-- The table with the attribute that an element declares, or with the members of the container that
it is. Elements of other names, and attributes without a name, add nothing. -/
def enterAttribute (t : Table String) : Element → Table String
  | ⟨tag, attributes, children, text⟩ =>
    let e : Element := ⟨tag, attributes, children, text⟩
    if tag ≠ "Attribute" then t
    else
      match e.attribute? "name" with
      | none => t
      | some name =>
        if e.attribute? "type" = some "Container" then enterAttributes t children
        else
          match e.childText? "Value" with
          | some value => t.insert name value
          | none => t

/-- The table with the attributes that the elements of a list declare. -/
def enterAttributes (t : Table String) : List Element → Table String
  | [] => t
  | e :: es => enterAttributes (enterAttribute t e) es

end

def attributesOf (e : Element) : Table String :=
  enterAttributes ∅ e.children

/-- The name of a dimension without the groups before it: what follows the last slash. -/
def dimensionName (path : String) : String :=
  match Text.cutLast? (· == '/') path.toList with
  | some (_, name) => String.ofList name
  | none => path

/-- The dimension that an element declares, with its size. -/
def dimension? (e : Element) : Option (String × Nat) := do
  let name ← e.attribute? "name"
  let size ← e.attribute? "size"
  let n ← Number.unsigned? Number.maxSize (Text.trim size).toList
  return (dimensionName name, n)

/-- The names of the dimensions that an element refers to, in order. References without a name are
passed over. -/
def dimensionsOf (e : Element) : List String :=
  (e.childrenNamed "Dim").filterMap fun d => (d.attribute? "name").map dimensionName

def variableOf? (e : Element) : Option Variable :=
  if e.name ∈ atomicTypes then
    (e.attribute? "name").map fun name => ⟨name, e.name, dimensionsOf e, attributesOf e⟩
  else none

def otherRoot (found : String) : Fault :=
  .internal s!"Expected a DMR Dataset element, got '{found}'"

/-- The metadata of a root element. -/
def ofElement (root : Element) : Except Fault Dataset :=
  if root.name ≠ "Dataset" then .error (otherRoot root.name)
  else
    .ok
      { name := (root.attribute? "name").getD ""
        dimensions := Table.ofList ((root.childrenNamed "Dimension").filterMap dimension?)
        contents := root.children.filterMap variableOf?
        attributes := attributesOf root }

def variableNamed? (d : Dataset) (name : String) : Option Variable :=
  d.contents.find? fun v => v.name == name

end Dataset

end CoverageAccess
