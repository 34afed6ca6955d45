import CoverageAccess.Dataset.Basic
import CoverageAccess.Service
/-!
# The grid of a dataset

The templates of a service are matched with the variables of a dataset. A template finds its
variable by the standard name, which only variables of one dimension are asked for, or else by the
name that the template expects. What the dataset says about the axis comes before what the template
says. The fields are all other variables whose last dimensions are those of the axes, in order.
-/

namespace CoverageAccess

/-- An axis of a dataset: its coordinate, the dimension that it spans, and the template that it
comes from. -/
structure GridAxis where
  coordinate : Coordinate
  dimension : String
  template : Template

namespace Dataset

/-- The standard name by which the variable of a coordinate is known. -/
def standardName (c : Coordinate) : String :=
  match c.role with
  | some r => r.name
  | none => c.name

/-- The variable has one dimension and the given standard name. -/
def isAxisVariable (standard : String) (v : Variable) : Bool :=
  v.dimensions.length == 1 && v.attributes.get? "standard_name" == some standard

def axisVariable? (d : Dataset) (c : Coordinate) : Option Variable :=
  (d.contents.find? (isAxisVariable (standardName c))).or (d.variableNamed? c.variableId)

/-- The dimension of a variable, which is called like the variable if it has none. -/
def spannedDimension (v : Variable) : String :=
  v.dimensions.head?.getD v.name

/-- The axis of a template whose variable is known. -/
def axisOfVariable (d : Dataset) (t : Template) (v : Variable) : GridAxis :=
  let dimension := spannedDimension v
  { coordinate :=
      { t.coordinate with
        variableId := v.name
        units := (v.attributes.get? "units").getD t.coordinate.units
        size := (d.dimensions.get? dimension).getD t.coordinate.size }
    dimension
    template := t }

/-- The axis of a template. Without a variable it is all as the template says. -/
def axisOf (d : Dataset) (t : Template) : GridAxis :=
  match d.axisVariable? t.coordinate with
  | some v => d.axisOfVariable t v
  | none => ⟨t.coordinate, t.coordinate.variableId, t⟩

/-- The axes of a list of templates, in order. -/
def axesOf (d : Dataset) (templates : List Template) : List GridAxis :=
  templates.map d.axisOf

def isCoordinateVariable (axes : List GridAxis) (v : Variable) : Bool :=
  axes.any fun a => a.coordinate.variableId == v.name

def isGridded (axes : List GridAxis) (v : Variable) : Bool :=
  (axes.map GridAxis.dimension).isSuffixOf v.dimensions

def fieldOf (v : Variable) : Field :=
  { name := v.name
    variableId := v.name
    description := v.attributes.get? "long_name"
    units := v.attributes.get? "units" }

/-- The fields of a dataset over the given axes, in document order. -/
def fieldsOver (d : Dataset) (axes : List GridAxis) : List Field :=
  (d.contents.filter fun v => !isCoordinateVariable axes v && isGridded axes v).map fieldOf

end Dataset

end CoverageAccess
