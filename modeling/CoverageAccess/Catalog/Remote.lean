import CoverageAccess.Cache.Basic
import CoverageAccess.Catalog.Refusal
import CoverageAccess.Dataset.Derived
import CoverageAccess.Routes
/-!
# The catalog of remote services

A `Remote` catalog finds the service of a coverage by the longest stem and describes the coverage by
the metadata of its dataset, which it keeps in a cache. Every service has at least one axis, and no
two services have the same stem.
-/

namespace CoverageAccess

namespace Catalog

/-- A catalog of remote services. -/
structure Remote where
  /-- The services by their stems. -/
  services : Table Service
  cache : Cache

namespace Remote

/-- The services that are there, and those of a list. -/
def enterServices (t : Table Service) : List Service → Except Refusal (Table Service)
  | [] => .ok t
  | s :: r =>
    if s.templates.isEmpty then .error (.noCoordinates s.stem)
    else if t.contains s.stem then .error (.repeatedStem s.stem)
    else enterServices (t.insert s.stem s) r

def make (services : List Service) (cache : Cache) : Except Refusal Remote := do
  return ⟨← enterServices ∅ services, cache⟩

def routes (r : Remote) : Routes :=
  Routes.ofList (r.services.entries.map fun e => (e.1, e.2.base))

def unknownStem (stem : String) : Fault :=
  .internal s!"Resolver returned unknown prefix '{stem}'"

def locate (r : Remote) (id : String) : Except Fault (Service × String) := do
  let route ← r.routes.resolve id
  match r.services.get? route.stem with
  | some s => return (s, route.url)
  | none => .error (unknownStem route.stem)

/-- The coverage of that identifier, and the catalog after looking up its metadata. -/
def coverage (source : Metadata.Source) (r : Remote) (id : String) :
    Except Fault Coverage × Remote :=
  match r.locate id with
  | .error e => (.error e, r)
  | .ok (s, url) =>
    let (root, cache) := r.cache.get source id url
    (root.bind fun root => s.derive root id url, { r with cache })

def datasetUrl (r : Remote) (id : String) : Except Fault String := do
  return (← r.routes.resolve id).url

end Remote

end Catalog

end CoverageAccess
