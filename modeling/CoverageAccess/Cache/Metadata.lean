import CoverageAccess.Digest
import CoverageAccess.Markup.Document
/-!
# Metadata documents

The metadata of a dataset are fetched from the address of the dataset with a suffix. A body is a
metadata document if it can be read as a document whose root is a dataset; pieces that are not UTF-8
are replaced before reading. Documents are kept under a digest of their address.
-/

namespace CoverageAccess

namespace Metadata

open Markup

def address (dataset : String) : String :=
  s!"{dataset}.dmr.xml"

def key (address : String) : String :=
  Digest.hexOfText address

/-- Why a body is no metadata document. -/
inductive Unfit where
  | malformed (cause : Fault)
  | otherRoot (name : String)
  deriving DecidableEq, Repr

/-- The wording of why a body is no metadata document. -/
def Unfit.text : Unfit → String
  | .malformed cause => cause.message
  | .otherRoot name => s!"root element is '{name}', not 'Dataset'"

def decode (body : List UInt8) : Except Unfit Element := do
  let root ← (Element.parse (Utf8.decodeReplacing body)).mapError .malformed
  if root.name = "Dataset" then return root else .error (.otherRoot root.name)

/-- Why a body cannot be fetched. -/
inductive Unfetched where
  | scheme (address : String)
  | unreachable (address : String)
  | status (address : String) (number : Nat)
  deriving DecidableEq, Repr

/-- The fault of a body that cannot be fetched. -/
def Unfetched.fault (u : Unfetched) : Fault :=
  let cause := match u with
    | .scheme address => s!"unsupported URL scheme: {address}"
    | .unreachable address =>
      s!"request to {address} failed: error sending request for url ({address})"
    | .status address number => s!"{address} returned HTTP {Number.ofNatural number}"
  .notFound s!"Unable to retrieve dataset metadata: {cause}"

/-- What answers for the bodies of addresses. -/
abbrev Source := String → Except Unfetched (List UInt8)

/-- The source without a network: no address can be reached, and only two schemes are known. -/
def offline : Source := fun address =>
  if Text.startsWith "http://" address || Text.startsWith "https://" address then
    .error (.unreachable address)
  else .error (.scheme address)

/-- The fault of a body that is no metadata document. -/
def unfitBody (id address : String) (cause : Unfit) : Fault :=
  .notFound s!"Metadata for coverage '{id}' from {address} is not a DMR document: {cause.text}"

/-- The body of an address and the document that it is, fetched for a coverage. -/
def obtain (source : Source) (id address : String) :
    Except Fault (List UInt8 × Element) := do
  let body ← (source address).mapError Unfetched.fault
  let root ← (decode body).mapError (unfitBody id address)
  return (body, root)

/-- The document as it is handed out: its root has the name of the coverage. -/
def named (id : String) (root : Element) : Element :=
  root.setAttribute "name" id

end Metadata

end CoverageAccess
