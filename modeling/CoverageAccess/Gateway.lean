import CoverageAccess.Box.Envelope
import CoverageAccess.Catalog.Basic
import CoverageAccess.Constraint
import CoverageAccess.Request.Markup
import CoverageAccess.Request.Query
/-!
# The gateway

A request for a coverage becomes an `Access`: where and how to get the selected data from the
backend. `Catalog.access` asks the catalog twice, for the description of the coverage and for the
address of its dataset; `Catalog.accessBetween` says what happens if the surroundings change between
the two.
-/

namespace CoverageAccess

/-- Where and how to get the data that a request selects. -/
structure Access where
  coverageId : String
  format : Format
  /-- The constraint expression before it is percent-encoded. -/
  expression : String
  url : String
  deriving DecidableEq, Repr

def Access.mediaType (a : Access) : String :=
  a.format.mediaType

def Access.disposition (a : Access) : String :=
  a.format.disposition a.coverageId

/-- The access to a coverage of the given description in the given dataset. -/
def Request.access (r : Request) (c : Coverage) (dataset : String) : Except Fault Access := do
  let format ← r.responseFormat c.nativeFormat
  let expression ← c.expression r.fields r.subsets r.scaling
  let url := format.accessUrl dataset (Percent.encode expression)
  return { coverageId := r.coverageId, format, expression, url }

namespace Catalog

/-- The access for a request, when the coverage is described in the surroundings `s` and its dataset
is located in the surroundings `t`. -/
def accessBetween (s t : Surroundings) (c : Catalog) (r : Request) :
    Except Fault Access × Catalog :=
  match c.coverage s r.coverageId with
  | (.error e, c) => (.error e, c)
  | (.ok description, c) =>
    let (dataset, c) := c.datasetUrl t r.coverageId
    (dataset.bind fun dataset => r.access description dataset, c)

def access (s : Surroundings) (c : Catalog) (r : Request) : Except Fault Access × Catalog :=
  c.accessBetween s s r

/-- The access for a request that has been read, or the fault of reading it. -/
def accessFor (s : Surroundings) (c : Catalog) (r : Except Fault Request) :
    Except Fault Access × Catalog :=
  match r with
  | .ok r => c.access s r
  | .error e => (.error e, c)

def accessOfQuery (s : Surroundings) (c : Catalog) (query : String) :
    Except Fault Access × Catalog :=
  c.accessFor s (Request.parseQuery query)

def accessOfDocument (s : Surroundings) (c : Catalog) (document : String) :
    Except Fault Access × Catalog :=
  c.accessFor s (Request.parseDocument document)

/-- The envelope element of a series, if a member has a box. -/
def seriesEnvelope (s : Surroundings) (c : Catalog) (id : String) :
    Except Fault (Option String) × Catalog :=
  let (series, c) := c.series s id
  let envelope := series.bind fun series => do
    let box ← series.envelope.mapError Box.Refusal.fault
    return box.map fun b => b.envelope.render
  (envelope, c)

end Catalog

end CoverageAccess
