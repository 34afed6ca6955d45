import CoverageAccess.Dataset.Extent
/-!
# Derived coverages

`Service.derive` describes a coverage by the metadata of its dataset: the axes and fields of its
grid, and its extent. A dataset without a field over the axes is no coverage of the service.
-/

namespace CoverageAccess

namespace Service

def noFields (id : String) (axes : List GridAxis) : Fault :=
  let names := Text.join ", " (axes.map fun a => a.coordinate.name)
  .notFound s!"Dataset for coverage '{id}' has no variables gridded over {names}"

/-- The coverage of a dataset of the service. -/
def describe (s : Service) (d : Dataset) (id url : String) : Except Fault Coverage := do
  let axes := d.axesOf s.templates
  let fields := d.fieldsOver axes
  if fields = [] then .error (noFields id axes)
  else
    let box ← (d.extent axes s.crs).mapError Box.Refusal.fault
    let c ← (Coverage.make id (axes.map GridAxis.coordinate) fields s.nativeFormat).mapError
      Coverage.Refusal.fault
    return { c with box, datasetUrl := some url }

def derive (s : Service) (root : Markup.Element) (id url : String) : Except Fault Coverage := do
  s.describe (← Dataset.ofElement root) id url

end Service

end CoverageAccess
