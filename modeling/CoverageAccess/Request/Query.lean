import CoverageAccess.Request.Basic
import CoverageAccess.Scaling.Query
import CoverageAccess.Subset.Text
/-!
# Requests as queries

The parameters are checked in a fixed order, so the first fault in that order is the one the client
is told of: protocol parameters, the coverage, the media type, the subsets, the fields, the scaling.
-/

namespace CoverageAccess

namespace Request

def checkParameter (value : Option String) (fits : String → Bool) (refusal : String → Refusal) :
    Except Refusal Unit :=
  match value with
  | none => .ok ()
  | some v => if fits v then .ok () else .error (refusal v)

/-- The parameters that every request of the protocol has, and one that is not supported. -/
def checkProtocol (q : Query) : Except Refusal Unit := do
  checkParameter (q.get? "service") (· == "WCS") fun _ => .service
  checkParameter (q.get? "version") (Text.startsWith "2.0") .version
  checkParameter (q.get? "request") (· == "GetCoverage") .operation
  if q.has "subsettingcrs" then .error (.otherCrs "SUBSETTINGCRS") else .ok ()

def queryCoverage (q : Query) : Except Refusal String :=
  match q.get? "coverageid" with
  | none => .error (.noCoverage "coverageId")
  | some id => if Text.isAllBlank id then .error (.noCoverage "coverageId") else .ok (Text.trim id)

/-- An item of a list of fields is the name of a field, and nothing more. -/
def checkFieldItem (item : String) : Except Refusal String :=
  if Text.mentions ':' item then .error (.interval item)
  else if Text.mentions '[' item || Text.mentions '(' item then .error (.fieldAxis item)
  else .ok item

/-- The fields of a list between commas; empty items are passed over. -/
def fieldList (s : String) : Except Refusal (List String) :=
  (((Text.fields ',' s).map Text.trim).filter fun item => item != "").mapM checkFieldItem

def queryFields (q : Query) : Except Refusal (List String) :=
  match q.get? "rangesubset" with
  | none => .ok []
  | some s => fieldList s

/-- The request of a query. -/
def ofQuery (q : Query) : Except Fault Request := do
  (checkProtocol q).mapError Refusal.fault
  let coverageId ← (queryCoverage q).mapError Refusal.fault
  let mediaType := q.get? "mediatype"
  (checkMediaType mediaType).mapError Refusal.fault
  let subsets ← enterAll Subset.ofQuery ∅ (q.getAll "subset")
  let fields ← (queryFields q).mapError Refusal.fault
  let scaling ← (Scaling.ofQuery q).mapError Scaling.Refusal.fault
  return { coverageId, format := q.get? "format", mediaType, fields, subsets, scaling }

def parseQuery (s : String) : Except Fault Request := do
  ofQuery (← Query.parse s)

end Request

end CoverageAccess
