import CoverageAccess.Cache.Metadata
import CoverageAccess.Files
/-!
# The metadata cache

A `Cache` keeps metadata documents in a directory, one file per key. `Cache.get` answers from the
file if there is one, and otherwise fetches the document and keeps its body. A file that is no
metadata document is removed, and the look-up that found it fails; the next one fetches. Only bodies
that are metadata documents are kept.
-/

namespace CoverageAccess

open Markup Metadata

/-- What stands in the place of a file. -/
inductive Slot where
  | vacant
  | file (body : List UInt8)
  /-- Reading fails for another reason than that there is no file. -/
  | blocked (cause : Files.Failure)
  deriving DecidableEq, Repr

/-- What stands in the place of a file, by the outcome of reading it. -/
def Slot.ofRead : Except Files.Failure (List UInt8) → Slot
  | .ok body => .file body
  | .error .absent => .vacant
  | .error cause => .blocked cause

/-- How often look-ups found a file, found none, and removed one. -/
structure Tally where
  hits : Nat
  misses : Nat
  evictions : Nat
  deriving DecidableEq, Repr

/-- A directory with metadata documents. -/
structure Cache where
  /-- The path of the directory. -/
  directory : String
  /-- What stands under each key. -/
  slots : String → Slot
  tally : Tally
  /-- The addresses that the source was asked for, in order. -/
  asked : List String

namespace Cache

def ofSlots (directory : String) (slots : String → Slot) : Cache :=
  ⟨directory, slots, ⟨0, 0, 0⟩, []⟩

def empty (directory : String) : Cache :=
  ofSlots directory fun _ => .vacant

/-- The slots with another one under `key`. -/
def place (slots : String → Slot) (key : String) (s : Slot) : String → Slot :=
  fun k => if k = key then s else slots k

def path (c : Cache) (key : String) : String :=
  Files.join c.directory key

def blockedFault (c : Cache) (key : String) (cause : Files.Failure) : Fault :=
  .internal s!"Failed to read cached DMR {c.path key}: {cause.text}"

/-- The fault of a file that is no metadata document. -/
def unreadable (id : String) : Fault :=
  .notFound s!"Cached metadata for coverage '{id}' is unreadable"

/-- A look-up that finds a file. -/
def getKept (c : Cache) (id key : String) (body : List UInt8) : Except Fault Element × Cache :=
  match decode body with
  | .ok root =>
    (.ok (named id root), { c with tally := { c.tally with hits := c.tally.hits + 1 } })
  | .error _ =>
    (.error (unreadable id),
      { c with
        slots := place c.slots key .vacant
        tally :=
          { c.tally with hits := c.tally.hits + 1, evictions := c.tally.evictions + 1 } })

/-- A look-up that finds no file. -/
def getFetched (source : Source) (c : Cache) (id address key : String) :
    Except Fault Element × Cache :=
  let c :=
    { c with
      tally := { c.tally with misses := c.tally.misses + 1 }
      asked := c.asked ++ [address] }
  match obtain source id address with
  | .ok (body, root) => (.ok (named id root), { c with slots := place c.slots key (.file body) })
  | .error e => (.error e, c)

/-- The metadata document of a dataset, for a coverage. -/
def get (source : Source) (c : Cache) (id dataset : String) : Except Fault Element × Cache :=
  let address := address dataset
  let key := key address
  match c.slots key with
  | .file body => c.getKept id key body
  | .vacant => getFetched source c id address key
  | .blocked cause => (.error (c.blockedFault key cause), c)

theorem place_self (slots : String → Slot) (key : String) (s : Slot) :
    place slots key s key = s := if_pos rfl

theorem place_of_ne (slots : String → Slot) {key k : String} (s : Slot) (h : k ≠ key) :
    place slots key s k = slots k := if_neg h

end Cache

end CoverageAccess
