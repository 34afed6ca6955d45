import CoverageAccess.Coverage
/-!
# Dataset services

A `Service` publishes datasets below a base address. It serves every coverage whose identifier
begins with its stem, and all its coverages have the same axes, for which it gives templates. What
the metadata of a dataset leaves open is taken from the templates.
-/

namespace CoverageAccess

/-- What a service says about an axis: a coordinate, and the bounds if they are known. -/
structure Template where
  coordinate : Coordinate
  lower : Option Float
  upper : Option Float

/-- A service that publishes datasets. -/
structure Service where
  /-- The beginning of the identifiers of its coverages. -/
  stem : String
  name : Option String
  /-- The address that takes the place of the stem. -/
  base : String
  crs : Option String
  nativeFormat : String
  /-- The axes in storage order. -/
  templates : List Template

namespace Service

def defaultFormat : String := "netcdf"

end Service

end CoverageAccess
