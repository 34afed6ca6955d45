import CoverageAccess.Markup.Node
/-!
# Service faults

Whatever a coverage request can fail with is one of five kinds of fault. Three kinds name the
parameter or element at fault, their locator; the other two carry a message only. A fault has an
exception code, a status number and a report document for the client.
-/

namespace CoverageAccess

/-- Why a request is not answered. -/
inductive Fault where
  /-- A required parameter is absent. -/
  | missing (locator text : String)
  /-- A parameter has a value that cannot be used. -/
  | invalid (locator text : String)
  /-- An option of the protocol that the service does not offer. -/
  | unsupported (locator text : String)
  /-- There is no such coverage, or its metadata cannot be had. -/
  | notFound (text : String)
  /-- The fault lies with the service. -/
  | internal (text : String)
  deriving DecidableEq, Repr

namespace Fault

/-- The exception code of the kind. -/
def code : Fault → String
  | missing .. => "MissingParameterValue"
  | invalid .. => "InvalidParameterValue"
  | unsupported .. => "OperationNotSupported"
  | notFound _ => "NoSuchCoverage"
  | internal _ => "NoApplicableCode"

def status : Fault → Nat
  | missing .. | invalid .. => 400
  | notFound _ => 404
  | unsupported .. => 501
  | internal _ => 500

def locator? : Fault → Option String
  | missing l _ | invalid l _ | unsupported l _ => some l
  | notFound _ | internal _ => none

/-- The whole message. -/
def message : Fault → String
  | missing l t => s!"Missing required parameter '{l}': {t}"
  | invalid l t => s!"Invalid parameter value for '{l}': {t}"
  | unsupported l t => s!"Operation not supported ({l}): {t}"
  | notFound t => s!"No such coverage: {t}"
  | internal t => s!"Internal error: {t}"

open Markup in
/-- The root element of the exception report. -/
def reportRoot (f : Fault) : Node :=
  let locator := match f.locator? with
    | some l => [("locator", l)]
    | none => []
  .element "ows:ExceptionReport"
    [("xmlns:ows", "http://www.opengis.net/ows/2.0"), ("version", "2.0.0")]
    [.text "\n  ",
      .element "ows:Exception" (("exceptionCode", f.code) :: locator)
        [.text "\n    ", .leaf "ows:ExceptionText" f.message, .text "\n  "],
      .text "\n"]

def report (f : Fault) : String :=
  Markup.Node.document f.reportRoot

theorem locator?_eq_none_iff {f : Fault} :
    f.locator? = none ↔ (∃ t, f = notFound t) ∨ ∃ t, f = internal t := by
  cases f <;> simp [locator?]

end Fault

end CoverageAccess
