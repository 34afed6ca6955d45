import CoverageAccess.CommandLine.Options
import CoverageAccess.CommandLine.Outline
import CoverageAccess.Gateway
import CoverageAccess.Settings.Gateway
/-!
# Runs of the command line

`CommandLine.run` does what the arguments ask for and answers the text to print and the exit status:
0 if all went well, 1 for a fault, whose report is printed, or if settings, catalog or document
cannot be read, 2 for wrong arguments, and 101 if the file of assignments makes the run break off.
It reads files through a `Files.Reader`, so that it can be run on a given folder as well as on the
file system. Metadata are not fetched; they come from the directory of the cache.
-/

namespace CoverageAccess

/-- The access as an indented JSON object. -/
def Access.toJson (a : Access) : String :=
  let members := [("coverage_id", a.coverageId), ("format", a.format.name),
    ("mime_type", a.mediaType), ("content_disposition", a.disposition),
    ("constraint", a.expression), ("url", a.url)]
  let lines := members.map fun e => "  " ++ Text.json e.1 ++ ": " ++ Text.json e.2
  "\x7b\n" ++ Text.join ",\n" lines ++ "\n\x7d"

namespace CommandLine

/-- What a run leaves behind. -/
structure Outcome where
  /-- The exit status. -/
  status : Nat
  output : String
  deriving DecidableEq, Repr

namespace Outcome

def failed : Outcome := ⟨1, ""⟩

def aborted : Outcome := ⟨101, ""⟩

def misused : Outcome := ⟨2, ""⟩

/-- A run that answers with a text or with the report of a fault. -/
def ofAnswer : Except Fault String → Outcome
  | .ok s => ⟨0, s ++ "\n"⟩
  | .error e => ⟨1, e.report ++ "\n"⟩

end Outcome

def help : String :=
  Text.join "\n"
    ["Translate WCS 2.0 GetCoverage requests into DAP data-access URLs", "",
      "Usage: wcs-gateway [OPTIONS] <--request <REQUEST>|--xml <XML>|--describe <DESCRIBE>|--series <SERIES>>",
      ""]

/-- An option together with the texts that its task needs: the query, or the request document. -/
inductive Job where
  | access (r : Except Fault Request)
  | describe (id : String)
  | series (id : String)

def Job.coverage? : Job → Option String
  | .access (.ok r) => some r.coverageId
  | .describe id => some id
  | _ => none

/-- The answer of a job. -/
def Job.answer (w : Surroundings) (c : Catalog) (asJson : Bool) : Job → Except Fault String
  | .access r => (c.accessFor w r).1.map fun a => if asJson then a.toJson else a.url
  | .describe id => (c.coverage w id).1.map fun c => c.outline.render 0
  | .series id =>
    (c.seriesEnvelope w id).1.map fun e =>
      e.getD s!"Dataset series '{id}' has no extent"

section

variable {m : Type → Type} [Monad m]

/-- The job of a task; nothing if its document cannot be read. -/
def job? (read : Files.Reader m) : Task → m (Option Job)
  | .query s => pure (some (.access (Request.parseQuery s)))
  | .document path => do
    let content ← read path
    return (content.bind Files.asText).toOption.map fun s => .access (Request.parseDocument s)
  | .describe id => pure (some (.describe id))
  | .series id => pure (some (.series id))

/-- The cache with the document of one dataset as it stands in the directory. -/
def withDocument (read : Files.Reader m) (c : Cache) (dataset : String) : m Cache := do
  let key := Metadata.key (Metadata.address dataset)
  let slot := Slot.ofRead (← read (c.path key))
  return { c with slots := Cache.place c.slots key slot }

/-- The catalog of remote services, ready for a job. -/
def remoteFor (read : Files.Reader m) (r : Catalog.Remote) (job : Job) : m Catalog.Remote :=
  match job.coverage?.bind fun id => (r.datasetUrl id).toOption with
  | some dataset => do return { r with cache := ← withDocument read r.cache dataset }
  | none => pure r

/-- The catalog of some settings, ready for a job, and its surroundings. -/
def catalogFor (read : Files.Reader m) (g : GatewaySettings) (job : Job) :
    m (Except Catalog.Refusal (Catalog × Surroundings)) :=
  match g.catalog with
  | .fixed => pure (.ok (.fixed .builtIn, ⟨.error .absent, Metadata.offline⟩))
  | .listed path => do
    let state : Files.State := (← read path).map fun content => ⟨0, content⟩
    return (Catalog.Listed.load path state).map fun l => (.listed l, ⟨state, Metadata.offline⟩)
  | .remote services =>
    match Catalog.Remote.make services (Cache.empty g.cacheDirectory) with
    | .ok r => do
      return .ok (.remote (← remoteFor read r job), ⟨.error .absent, Metadata.offline⟩)
    | .error e => pure (.error e)

/-- Does what the options ask for. -/
def runOptions (read : Files.Reader m) (o : Options) : m Outcome := do
  match GatewaySettings.ofFile o.config (← read o.config), ← job? read o.task with
  | .ok g, some job =>
    match ← catalogFor read g job with
    | .ok (c, w) => return .ofAnswer (job.answer w c o.json)
    | .error _ => return .failed
  | _, _ => return .failed

/-- Does what the arguments ask for. -/
def run (read : Files.Reader m) (e : Environment) (arguments : List String) : m Outcome := do
  match e.withFile? ((← read ".env").toOption.getD []), given? .nothing arguments with
  | none, _ => return .aborted
  | some _, none => return .misused
  | some e, some g =>
    if g.switches.contains .help then return ⟨0, help⟩
    else
      match g.options? e with
      | none => return .misused
      | some o => runOptions read o

end

end CommandLine

end CoverageAccess
