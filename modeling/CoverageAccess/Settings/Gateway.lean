import CoverageAccess.Files
import CoverageAccess.Settings.Description
import CoverageAccess.Settings.Document
import CoverageAccess.Text.Quoted
/-!
# Gateway settings

The settings of a gateway say which catalog it serves and where it keeps metadata. They are read
strictly. Without a settings file the gateway serves the fixed catalog; the path of a catalog file
is relative to the directory of the settings file.
-/

namespace CoverageAccess

/-- Which catalog a gateway serves. -/
inductive CatalogSettings where
  | fixed
  | listed (path : String)
  | remote (services : List Service)

/-- The settings of a gateway. -/
structure GatewaySettings where
  /-- The directory of the metadata cache. -/
  cacheDirectory : String
  /-- The most seconds that fetching a document may take. -/
  timeout : Option Nat
  catalog : CatalogSettings

namespace Settings

/-- The kind of a catalog with the value that holds the rest of its settings: the other entries of
a map, or the other items of a list. -/
def catalogParts? : Value → Option (Value × Value)
  | .map entries =>
    let isKind (e : Value × Value) : Bool := e.1.text? .strict == some "kind"
    match entries.filter isKind with
    | [(_, kind)] => some (kind, .map (entries.filter fun e => !isKind e))
    | _ => none
  | .list (kind :: rest) => some (kind, .list rest)
  | _ => none

/-- Nothing more has to be said of a fixed catalog; a list must be at its end. -/
def fixedCatalog? : Value → Option CatalogSettings
  | .map _ | .list [] => some .fixed
  | _ => none

def listedCatalog? (v : Value) : Option CatalogSettings := do
  let entries ← v.record? .strict ["path"]
  return .listed (← required entries "path" (Value.text? .strict))

def remoteCatalog? (v : Value) : Option CatalogSettings := do
  let entries ← v.record? .strict ["services"]
  return .remote (← required entries "services" (Value.list? .strict (service? .strict)))

/-- The catalog settings of a value. A kind may also be given by its number. -/
def catalog? (v : Value) : Option CatalogSettings := do
  let (kind, rest) ← catalogParts? v
  match kind.text? .strict, kind.position? with
  | some "local_file", _ | none, some 0 => listedCatalog? rest
  | some "dynamic_service", _ | none, some 1 => remoteCatalog? rest
  | some "dummy", _ | none, some 2 => fixedCatalog? rest
  | _, _ => none

end Settings

namespace GatewaySettings

open Settings

/-- The directory of the metadata cache if the settings name none. -/
def defaultDirectory : String := "/tmp/wcs-gateway/dmr-cache"

def default : GatewaySettings := ⟨defaultDirectory, none, .fixed⟩

/-- How many times lists and maps may be nested in the settings. -/
def deepest : Nat := 128

/-- The settings of a value. -/
def ofValue? : Value → Option GatewaySettings
  | .map m => do
    let all ← Value.named? .loose [] m
    if !all.all fun e => e.2.isKept (deepest - 1) then failure
    let entries ← Value.fields? ["cache_dir", "fetch_timeout_secs", "catalog"] all
    let cacheDirectory ← defaulted entries "cache_dir" defaultDirectory (Value.text? .strict)
    let timeout ← optional entries "fetch_timeout_secs" (Value.natural? .strict)
    let catalog ← required entries "catalog" catalog?
    return { cacheDirectory, timeout, catalog }
  | _ => none

def ofText? (s : String) : Option GatewaySettings :=
  (Value.ofDocument? s).bind ofValue?

/-- The settings as seen from outside of the directory of their file. -/
def seenFrom (directory : String) (g : GatewaySettings) : GatewaySettings :=
  match g.catalog with
  | .listed path => { g with catalog := .listed (Files.join directory path) }
  | _ => g

def timeoutMillis (g : GatewaySettings) : Option Nat :=
  g.timeout.map (1000 * ·)

/-- Why settings are not loaded. -/
inductive Refusal where
  | unreadable (path : String)
  | unparsable (path : String)
  deriving DecidableEq, Repr

/-- The wording of why settings are not loaded. -/
def Refusal.message : Refusal → String
  | .unreadable path => s!"Failed to read: {Text.described path}"
  | .unparsable path => s!"Failed to parse: {Text.described path}"

/-- The settings that reading the file at a path gives. A path that leads nowhere means that there
is no settings file. -/
def ofFile (path : String) : Except Files.Failure (List UInt8) → Except Refusal GatewaySettings
  | .error .directory | .error .notText => .error (.unreadable path)
  | .error _ => .ok default
  | .ok content =>
    match Utf8.decode? content with
    | none => .error (.unreadable path)
    | some s =>
      match ofText? s with
      | none => .error (.unparsable path)
      | some g => .ok (g.seenFrom (Files.parent path))

end GatewaySettings

end CoverageAccess
