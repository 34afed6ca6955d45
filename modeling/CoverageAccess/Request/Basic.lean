import CoverageAccess.Format
import CoverageAccess.Scaling.Basic
import CoverageAccess.Subset.Basic
import CoverageAccess.Table
/-!
# Coverage requests

A `Request` asks for a coverage: some of its fields, restricted by subsets of which there is at most
one per dimension, resampled, and encoded in a format. Since the subsets are filed by dimension, the
order in which the client wrote them is not kept.
-/

namespace CoverageAccess

/-- A request for a coverage. -/
structure Request where
  coverageId : String
  format : Option String
  mediaType : Option String
  /-- The names of the fields, in the order of the request. None of them means all fields. -/
  fields : List String
  /-- The subsets by their dimensions. -/
  subsets : Table Subset
  scaling : Scaling

namespace Request

/-- Why a request is refused before its coverage is looked at. -/
inductive Refusal where
  | service
  | version (found : String)
  | operation (found : String)
  | document (found : String)
  | otherCrs (locator : String)
  | noCoverage (locator : String)
  | mediaType (found : String)
  | repeatedDimension (dimension : String)
  | interval (item : String)
  | fieldAxis (item : String)
  | intervals
  deriving DecidableEq, Repr

def multipart : String := "multipart/related"

/-- The fault of a request that is refused. -/
def Refusal.fault : Refusal → Fault
  | .service => .invalid "service" "SERVICE must be WCS"
  | .version found => .invalid "version" s!"Unsupported version '{found}', expected 2.0.x"
  | .operation found => .invalid "request" s!"Expected a GetCoverage request, got '{found}'"
  | .document found => .invalid "request" s!"Expected a GetCoverage document, got '{found}'"
  | .otherCrs locator =>
    .unsupported locator "Subsetting in a CRS other than the native CRS is not supported"
  | .noCoverage locator => .missing locator s!"GetCoverage requires a {locator}"
  | .mediaType found =>
    .invalid "mediaType" s!"mediaType must be '{multipart}', got '{found}'"
  | .repeatedDimension dimension =>
    .invalid "subset" s!"Dimension '{dimension}' is subset more than once"
  | .interval item => .unsupported "RangeSubset" s!"Range intervals ('{item}') are not supported"
  | .fieldAxis item =>
    .unsupported "RangeSubset" s!"Axis subsetting within a field ('{item}') is not supported"
  | .intervals => .unsupported "RangeSubset" "Range intervals are not supported"

/-- A media type is left out, or it is the one there is. -/
def checkMediaType : Option String → Except Refusal Unit
  | none => .ok ()
  | some found => if found = multipart then .ok () else .error (.mediaType found)

/-- One more subset. Its dimension must not have one yet. -/
def enter (subsets : Table Subset) (s : Subset) : Except Refusal (Table Subset) :=
  if subsets.contains s.dimension then .error (.repeatedDimension s.dimension)
  else .ok (subsets.insert s.dimension s)

/-- The subsets that `read` finds in the members of a list, one after the other, together with the
ones that are there. -/
def enterAll (read : α → Except Subset.Refusal Subset) (subsets : Table Subset) :
    List α → Except Fault (Table Subset)
  | [] => .ok subsets
  | a :: r => do
    let s ← (read a).mapError Subset.Refusal.fault
    let subsets ← (enter subsets s).mapError Refusal.fault
    enterAll read subsets r

/-- The format of the answer: the requested one, or the native one of the coverage. -/
def responseFormat (r : Request) (native : String) : Except Fault Format :=
  Format.ofText (r.format.getD native)

/-- Equal parts; a NaN among the factors equals nothing. -/
def same (r t : Request) : Bool :=
  r.coverageId == t.coverageId && r.format == t.format && r.mediaType == t.mediaType &&
    r.fields == t.fields && r.subsets == t.subsets && r.scaling.same t.scaling

end Request

end CoverageAccess
