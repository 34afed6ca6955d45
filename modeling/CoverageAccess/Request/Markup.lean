import CoverageAccess.Request.Basic
import CoverageAccess.Scaling.Markup
import CoverageAccess.Subset.Markup
/-!
# Requests as documents

`Request.ofElement` reads the root of a request document, and `Request.document` writes one. As in
queries, the checks have a fixed order.
-/

namespace CoverageAccess

namespace Request

open Markup

/-- The root is that of a request, and the document asks for no other reference system. -/
def checkRoot (root : Element) : Except Refusal Unit :=
  if root.name ≠ "GetCoverage" then .error (.document root.name)
  else if root.descendants "subsettingCrs" ≠ [] then .error (.otherCrs "subsettingCrs")
  else .ok ()

def elementCoverage (root : Element) : Except Refusal String :=
  match root.childText? "CoverageId" with
  | none => .error (.noCoverage "CoverageId")
  | some id => if id = "" then .error (.noCoverage "CoverageId") else .ok id

def dimensionElements (root : Element) : List Element :=
  root.children.filter fun e => Text.startsWith "Dimension" e.name

/-- The fields that a document names; empty names are passed over. -/
def elementFields (root : Element) : Except Refusal (List String) :=
  if root.descendants "RangeInterval" ≠ [] then .error .intervals
  else
    .ok (((root.descendants "RangeComponent").map fun e => Text.trim e.text).filter
      fun name => name != "")

/-- The request of the root of a document. -/
def ofElement (root : Element) : Except Fault Request := do
  (checkRoot root).mapError Refusal.fault
  let coverageId ← (elementCoverage root).mapError Refusal.fault
  let mediaType := root.childText? "mediaType"
  (checkMediaType mediaType).mapError Refusal.fault
  let subsets ← enterAll Subset.ofElement ∅ (dimensionElements root)
  let fields ← (elementFields root).mapError Refusal.fault
  let scaling ← (Scaling.ofElement root).mapError Scaling.Refusal.fault
  return { coverageId, format := root.childText? "format", mediaType, fields, subsets, scaling }

def parseDocument (s : String) : Except Fault Request := do
  ofElement (← Element.parse s)

/-- The attributes of the root: the namespaces, the service and its version. -/
def rootAttributes : List (String × String) :=
  [("xmlns:wcs", "http://www.opengis.net/wcs/2.0"),
    ("xmlns:rsub", "http://www.opengis.net/wcs/range-subsetting/1.0"),
    ("xmlns:scal", "http://www.opengis.net/wcs/scaling/1.0"),
    ("xmlns:int", "http://www.opengis.net/wcs/interpolation/1.0"),
    ("xmlns:crs", "http://www.opengis.net/wcs/crs/1.0"),
    ("service", "WCS"), ("version", "2.0.1")]

def fieldNode (name : String) : Node :=
  .element "rsub:RangeItem" [] [.leaf "rsub:RangeComponent" name]

/-- The element that lists the fields, unless all of them are asked for. -/
def fieldsNodes : List String → List Node
  | [] => []
  | names => [.element "rsub:RangeSubset" [] (names.map fieldNode)]

/-- The element that holds fields and scaling, unless there is neither. -/
def extensionNodes (r : Request) : List Node :=
  match fieldsNodes r.fields ++ r.scaling.toNodes with
  | [] => []
  | nodes => [.element "wcs:Extension" [] nodes]

/-- The root element of a request. The subsets stand in the order of their dimensions. -/
def toNode (r : Request) : Node :=
  .element "wcs:GetCoverage" rootAttributes
    (.leaf "wcs:CoverageId" r.coverageId :: r.subsets.values.map Subset.toNode ++
      r.format.toList.map (.leaf "wcs:format") ++
      r.mediaType.toList.map (.leaf "wcs:mediaType") ++ r.extensionNodes)

def document (r : Request) : String :=
  Node.document r.toNode

end Request

end CoverageAccess
