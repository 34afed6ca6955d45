import CoverageAccess.Catalog.Edition
import CoverageAccess.Settings.Description
import CoverageAccess.Settings.Document
/-!
# Catalog files

The readers of the records in a catalog file, which are read loosely. `Listing.ofText?` answers
nothing if the file is no settings document or a record does not fit.
-/

namespace CoverageAccess

namespace Settings

/-- The box entry of a record. -/
def boxEntry? (v : Value) : Option BoxEntry := do
  let entries ← v.record? .loose
    ["srs_name", "axis_labels", "lower_corner", "upper_corner", "begin_position", "end_position"]
  let text := Value.text? .loose
  let reals := Value.list? .loose (Value.real? .loose)
  let crs ← optional entries "srs_name" text
  let labels ← required entries "axis_labels" (Value.list? .loose text)
  let lower ← required entries "lower_corner" reals
  let upper ← required entries "upper_corner" reals
  let start ← optional entries "begin_position" text
  let finish ← optional entries "end_position" text
  return { crs, labels, lower, upper, start, finish }

/-- The coverage entry of a record. -/
def coverageEntry? (v : Value) : Option CoverageEntry := do
  let entries ← v.record? .loose
    ["coverage_id", "dataset_url", "native_format", "domain_coordinates", "fields",
      "bounding_box"]
  let text := Value.text? .loose
  let id ← required entries "coverage_id" text
  let datasetUrl ← required entries "dataset_url" text
  let nativeFormat ← defaulted entries "native_format" Service.defaultFormat text
  let coordinates ← required entries "domain_coordinates"
    (Value.list? .loose (coordinate? .loose))
  let fields ← required entries "fields" (Value.list? .loose (field? .loose))
  let box ← optional entries "bounding_box" boxEntry?
  return { id, datasetUrl, nativeFormat, coordinates, fields, box }

def seriesEntry? (v : Value) : Option SeriesEntry := do
  let entries ← v.record? .loose ["id", "members"]
  let id ← required entries "id" (Value.text? .loose)
  let members ← required entries "members" (Value.list? .loose (Value.text? .loose))
  return { id, members }

def listing? (v : Value) : Option Listing := do
  let entries ← v.record? .loose ["coverages", "dataset_series"]
  let coverages ← defaulted entries "coverages" [] (Value.list? .loose coverageEntry?)
  let series ← defaulted entries "dataset_series" [] (Value.list? .loose seriesEntry?)
  return { coverages, series }

end Settings

def Listing.ofText? (s : String) : Option Listing :=
  (Settings.Value.ofDocument? s).bind Settings.listing?

def Edition.ofText (path s : String) : Except Catalog.Refusal Edition :=
  match Listing.ofText? s with
  | some l => Edition.ofListing path l
  | none => .error (.unparsable path)

end CoverageAccess
