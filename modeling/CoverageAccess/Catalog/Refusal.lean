import CoverageAccess.Fault
import CoverageAccess.Files
/-!
# Refused catalogs

Why there is no catalog: its file cannot be read or understood, or what is written there contradicts
itself.
-/

namespace CoverageAccess

namespace Catalog

/-- Why a catalog is not set up. -/
inductive Refusal where
  | unreadable (path : String) (cause : Files.Failure)
  | unparsable (path : String)
  | badCoverage (path : String) (cause : Fault)
  | repeatedCoverage (path id : String)
  | unknownMember (path series member : String)
  | noCoordinates (stem : String)
  | repeatedStem (stem : String)
  deriving DecidableEq, Repr

/-- What contradicts itself in a catalog; nothing if it could not be read or understood. -/
def Refusal.contradiction? : Refusal → Option String
  | .unreadable .. | .unparsable _ => none
  | .badCoverage path cause => some s!"{path}: {cause.message}"
  | .repeatedCoverage path id => some s!"{path}: coverage '{id}' is listed twice"
  | .unknownMember path series member =>
    some s!"{path}: dataset series '{series}' references unknown coverage '{member}'"
  | .noCoordinates stem => some s!"service '{stem}' declares no domain coordinates"
  | .repeatedStem stem => some s!"service prefix '{stem}' is configured twice"

/-- The whole message. -/
def Refusal.message : Refusal → String
  | .unreadable path cause => s!"failed to read {path}: {cause.text}"
  | .unparsable path => s!"failed to parse {path}"
  | r =>
    let text := r.contradiction?.getD ""
    s!"invalid catalog configuration: {text}"

end Catalog

end CoverageAccess
