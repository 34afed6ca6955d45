import CoverageAccess.Catalog.Edition
/-!
# The fixed catalog

A catalog for demonstrations: a few global grids that are always there, and whatever coverages are
added.
-/

namespace CoverageAccess

namespace Catalog

/-- Coverages by their identifiers. -/
structure Fixed where
  coverages : Table Coverage

namespace Fixed

/-- The address below which the datasets of the global grids are. -/
def base : String := "http://localhost:8080/opendap/dummy/"

def days : Coordinate := ⟨"time", "time", "days since 1970-01-01", 365, some .time⟩

def latitude : Coordinate := ⟨"latitude", "lat", "degrees_north", 180, some .latitude⟩

def longitude : Coordinate := ⟨"longitude", "lon", "degrees_east", 360, some .longitude⟩

def globe : Box :=
  { axes := [⟨"latitude", -90, 90⟩, ⟨"longitude", -180, 180⟩]
    period := none
    crs := some "urn:ogc:def:crs:EPSG::4326" }

/-- A grid over the globe, with fields given by their names and variables. -/
def grid (id : String) (fields : List (String × String)) (coordinates : List Coordinate) :
    Coverage :=
  { id
    coordinates
    fields := fields.map fun f => ⟨f.1, f.2, none, none⟩
    nativeFormat := "netcdf"
    box := some globe
    datasetUrl := some (base ++ id) }

/-- The catalog with one more coverage, or with another one for its identifier. -/
def add (f : Fixed) (c : Coverage) : Fixed :=
  ⟨f.coverages.insert c.id c⟩

def builtIn : Fixed :=
  (Fixed.add ⟨∅⟩ (grid "dummy/sst.nc" [("sst", "analysed_sst"), ("mask", "mask")]
    [days, latitude, longitude])).add
      (grid "dummy/bathymetry.nc" [("elevation", "z")] [latitude, longitude])

def coverage (f : Fixed) (id : String) : Except Fault Coverage :=
  match f.coverages.get? id with
  | some c => .ok c
  | none => .error (Edition.noCoverage id)

def noDataset (id : String) : Fault :=
  .notFound s!"Coverage '{id}' has no backend dataset"

def datasetUrl (f : Fixed) (id : String) : Except Fault String := do
  match (← f.coverage id).datasetUrl with
  | some url => return url
  | none => .error (noDataset id)

end Fixed

end Catalog

end CoverageAccess
