import CoverageAccess.Settings.Listing
/-!
# The catalog of a file

A `Listed` catalog serves the edition that its file held when it was last read. Before every look-up
it is brought up to date: if the time of the last change is another one, the file is read again. A
file that is gone or of no use changes nothing.
-/

namespace CoverageAccess

namespace Catalog

open Files

/-- A catalog that is kept in a file. -/
structure Listed where
  path : String
  edition : Edition
  /-- The time of the last change of the file when it was read. -/
  stamp : Nat

namespace Listed

def editionOf (path : String) (content : List UInt8) : Except Refusal Edition := do
  let s ← (asText content).mapError (.unreadable path)
  Edition.ofText path s

def load (path : String) (state : State) : Except Refusal Listed := do
  let file ← state.mapError (.unreadable path)
  let edition ← editionOf path file.content
  return ⟨path, edition, file.stamp⟩

/-- The catalog brought up to date with its file. -/
def refresh (l : Listed) (state : State) : Listed :=
  match state with
  | .error _ => l
  | .ok file =>
    if file.stamp = l.stamp then l
    else
      match load l.path state with
      | .ok new => new
      | .error _ => l

/-- The identifiers of the coverages, in ascending order. -/
def ids (l : Listed) : List String :=
  l.edition.coverages.names

theorem path_refresh (l : Listed) (state : State) : (l.refresh state).path = l.path := by
  unfold refresh
  split
  · rfl
  · split
    · rfl
    · split
      next new h =>
        simp only [load, bind, Except.bind] at h
        split at h
        · cases h
        · split at h
          · cases h
          · cases h
            rfl
      next => rfl

end Listed

end Catalog

end CoverageAccess
