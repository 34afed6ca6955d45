import CoverageAccess.Catalog.Fixed
import CoverageAccess.Catalog.Listed
import CoverageAccess.Catalog.Remote
/-!
# Catalogs

A `Catalog` is fixed, or listed in a file, or made of remote services. A look-up depends on what is
outside of the catalog, its `Surroundings`: the file as it stands and the source of metadata. It
answers together with the catalog as it is after the look-up.
-/

namespace CoverageAccess

/-- What describes coverages and locates their datasets. -/
inductive Catalog where
  | fixed (f : Catalog.Fixed)
  | listed (l : Catalog.Listed)
  | remote (r : Catalog.Remote)

/-- What is outside of a catalog. -/
structure Surroundings where
  /-- The catalog file as it stands. -/
  file : Files.State
  /-- The source of metadata. -/
  metadata : Metadata.Source

namespace Catalog

/-- The kinds of catalogs. -/
inductive Kind where
  | fixed
  | listed
  | remote
  deriving DecidableEq, Repr

def Kind.name : Kind → String
  | .fixed => "dummy"
  | .listed => "local_file"
  | .remote => "dynamic_service"

def kind : Catalog → Kind
  | .fixed _ => .fixed
  | .listed _ => .listed
  | .remote _ => .remote

/-- The coverage of that identifier. -/
def coverage (s : Surroundings) (c : Catalog) (id : String) : Except Fault Coverage × Catalog :=
  match c with
  | .fixed f => (f.coverage id, .fixed f)
  | .listed l =>
    let l := l.refresh s.file
    (l.edition.coverage id, .listed l)
  | .remote r =>
    let (answer, r) := r.coverage s.metadata id
    (answer, .remote r)

/-- The address of the dataset of a coverage. -/
def datasetUrl (s : Surroundings) (c : Catalog) (id : String) : Except Fault String × Catalog :=
  match c with
  | .fixed f => (f.datasetUrl id, .fixed f)
  | .listed l =>
    let l := l.refresh s.file
    (l.edition.datasetUrl id, .listed l)
  | .remote r => (r.datasetUrl id, .remote r)

def has (s : Surroundings) (c : Catalog) (id : String) : Bool × Catalog :=
  let (answer, c) := c.coverage s id
  (answer.isOk, c)

def noSeries (k : Kind) (id : String) : Fault :=
  .notFound s!"No dataset series '{id}' in the {k.name} catalog"

/-- The series of that identifier. Only listed catalogs have series. -/
def series (s : Surroundings) (c : Catalog) (id : String) : Except Fault Series × Catalog :=
  match c with
  | .listed l =>
    let l := l.refresh s.file
    (l.edition.seriesNamed id, .listed l)
  | .fixed f => (.error (noSeries .fixed id), .fixed f)
  | .remote r => (.error (noSeries .remote id), .remote r)

end Catalog

end CoverageAccess
