import CoverageAccess.Catalog.Refusal
import CoverageAccess.Series
import CoverageAccess.Time.Position
/-!
# Editions of a listing

A `Listing` is the content of a catalog file: entries of coverages and of series. An `Edition` is a
listing made ready for look-ups. No coverage may be listed twice, and the members of a series have
to be listed; of two series with one identifier the later counts.
-/

namespace CoverageAccess

/-- The box of a coverage as it is listed, with the positions in time if they are given. -/
structure BoxEntry where
  crs : Option String
  labels : List String
  lower : List Float
  upper : List Float
  start : Option String
  finish : Option String

/-- A coverage as it is listed. -/
structure CoverageEntry where
  id : String
  datasetUrl : String
  nativeFormat : String
  coordinates : List Coordinate
  fields : List Field
  box : Option BoxEntry

/-- A series as it is listed. -/
structure SeriesEntry where
  id : String
  members : List String
  deriving DecidableEq, Repr

/-- The content of a catalog file. -/
structure Listing where
  coverages : List CoverageEntry
  series : List SeriesEntry

/-- A listing ready for look-ups. -/
structure Edition where
  coverages : Table Coverage
  /-- The identifiers of the members of each series. -/
  series : Table (List String)

/-- The box of an entry. It has a period if both positions are given. -/
def BoxEntry.box (e : BoxEntry) : Except Fault Box := do
  let b ← (Box.ofCorners e.labels e.lower e.upper e.crs).mapError Box.Refusal.fault
  match e.start, e.finish with
  | some s, some f => do
    let start ← Time.parsePosition s
    let finish ← Time.parsePosition f
    return b.withPeriod (← Period.make start finish)
  | _, _ => return b

/-- The coverage of an entry. -/
def CoverageEntry.coverage (e : CoverageEntry) : Except Fault Coverage := do
  let c ← (Coverage.make e.id e.coordinates e.fields e.nativeFormat).mapError
    Coverage.Refusal.fault
  let c := { c with datasetUrl := some e.datasetUrl }
  match e.box with
  | some entry => return { c with box := some (← entry.box) }
  | none => return c

namespace Edition

open Catalog

def empty : Edition := ⟨∅, ∅⟩

/-- The coverages that are there, and those of a list of entries. -/
def enterCoverages (path : String) (t : Table Coverage) :
    List CoverageEntry → Except Refusal (Table Coverage)
  | [] => .ok t
  | e :: es => do
    let c ← e.coverage.mapError (.badCoverage path)
    if t.contains e.id then .error (.repeatedCoverage path e.id)
    else enterCoverages path (t.insert e.id c) es

/-- The series that are there, and those of a list of entries. -/
def enterSeries (path : String) (coverages : Table Coverage) (t : Table (List String)) :
    List SeriesEntry → Except Refusal (Table (List String))
  | [] => .ok t
  | e :: es =>
    match e.members.find? fun m => !coverages.contains m with
    | some m => .error (.unknownMember path e.id m)
    | none => enterSeries path coverages (t.insert e.id e.members) es

/-- The edition of a listing, which was read from the given path. -/
def ofListing (path : String) (l : Listing) : Except Refusal Edition := do
  let coverages ← enterCoverages path ∅ l.coverages
  let series ← enterSeries path coverages ∅ l.series
  return ⟨coverages, series⟩

/-- The fault of an identifier that names no coverage. -/
def noCoverage (id : String) : Fault :=
  .notFound s!"No such coverage '{id}'"

/-- The fault of an identifier that names no series. -/
def noSeries (id : String) : Fault :=
  .notFound s!"No such dataset series '{id}'"

def coverage (e : Edition) (id : String) : Except Fault Coverage :=
  match e.coverages.get? id with
  | some c => .ok c
  | none => .error (noCoverage id)

/-- The coverages of some identifiers, in order. -/
def coveragesOf (e : Edition) : List String → Except Fault (List Coverage)
  | [] => .ok []
  | id :: ids => do
    let c ← e.coverage id
    let cs ← e.coveragesOf ids
    return c :: cs

def seriesNamed (e : Edition) (id : String) : Except Fault Series :=
  match e.series.get? id with
  | some members => (e.coveragesOf members).map fun cs => ⟨id, cs⟩
  | none => .error (noSeries id)

def datasetUrl (e : Edition) (id : String) : Except Fault String := do
  match (← e.coverage id).datasetUrl with
  | some url => return url
  | none => .error (noCoverage id)

end Edition

end CoverageAccess
