import CoverageAccess.Cache.Basic
/-!
# Look-ups at the same time

Look-ups of one key must not run at the same time, so each key has a lock while look-ups of it are
under way. `Lookups` is a cache together with the locks and the look-ups that have arrived, and
`Lookups.step` says what can happen next: a look-up arrives, takes its lock, does a piece of its
work, lets go of the lock, and clears the lock away if nobody else refers to it. Its work is cut
where it waits for something outside: it reads the file, and then removes it, or receives the answer
of the source and keeps the body. A look-up may also be abandoned: while it waits for its lock, and
then it clears nothing away, or while it holds it, and then it leaves as others do.

`Lookups.serve` is one course of events: all look-ups arrive, and then each of them runs to its end,
in order.
-/

namespace CoverageAccess

open Markup Metadata

/-- Where a look-up stands. From `reading` to `finished` it holds its lock. -/
inductive Stage where
  | waiting
  | reading
  /-- The file that was read is no metadata document. -/
  | removing
  /-- There is no file, and the source has been asked. -/
  | fetching
  /-- The source has answered with a metadata document. -/
  | storing (body : List UInt8) (root : Element)
  | finished
  /-- The lock has been let go, but perhaps not cleared away. -/
  | leaving
  | gone
  deriving Repr

namespace Stage

def isWaiting : Stage → Bool
  | waiting => true
  | _ => false

def isHolding : Stage → Bool
  | reading | removing | fetching | storing .. | finished => true
  | _ => false

end Stage

/-- A look-up that has arrived. -/
structure Lookup where
  id : String
  dataset : String
  /-- The number of its lock. -/
  lock : Nat
  stage : Stage
  answer : Option (Except Fault Element)

namespace Lookup

def address (l : Lookup) : String :=
  Metadata.address l.dataset

def key (l : Lookup) : String :=
  Metadata.key l.address

/-- The look-up has a lock: it waits for it or holds it. -/
def isLive (l : Lookup) : Bool :=
  l.stage.isWaiting || l.stage.isHolding

def refersTo (lock : Nat) (l : Lookup) : Bool :=
  l.lock == lock && l.isLive

def holds (lock : Nat) (l : Lookup) : Bool :=
  l.lock == lock && l.stage.isHolding

def finish (l : Lookup) (answer : Except Fault Element) : Lookup :=
  { l with stage := .finished, answer := some answer }

/-- Reads the file. Where there is none, the source is asked. -/
def read (c : Cache) (l : Lookup) : Lookup × Cache :=
  match c.slots l.key with
  | .file body =>
    match decode body with
    | .ok root =>
      (l.finish (.ok (named l.id root)),
        { c with tally := { c.tally with hits := c.tally.hits + 1 } })
    | .error _ =>
      ({ l with stage := .removing },
        { c with
          tally :=
            { c.tally with hits := c.tally.hits + 1, evictions := c.tally.evictions + 1 } })
  | .vacant =>
    ({ l with stage := .fetching },
      { c with
        tally := { c.tally with misses := c.tally.misses + 1 }
        asked := c.asked ++ [l.address] })
  | .blocked cause => (l.finish (.error (c.blockedFault l.key cause)), c)

/-- Removes the file that is no metadata document. -/
def remove (c : Cache) (l : Lookup) : Lookup × Cache :=
  (l.finish (.error (Cache.unreadable l.id)),
    { c with slots := Cache.place c.slots l.key .vacant })

/-- Receives the answer of the source. -/
def receive (source : Source) (l : Lookup) : Lookup :=
  match obtain source l.id l.address with
  | .ok (body, root) => { l with stage := .storing body root }
  | .error e => l.finish (.error e)

/-- Keeps a body that is a metadata document. -/
def store (c : Cache) (l : Lookup) (body : List UInt8) (root : Element) : Lookup × Cache :=
  (l.finish (.ok (named l.id root)), { c with slots := Cache.place c.slots l.key (.file body) })

end Lookup

/-- A cache with the look-ups that have arrived. -/
structure Lookups where
  cache : Cache
  /-- The numbers of the locks by their keys. -/
  locks : Table Nat
  /-- How many locks there have been. -/
  issued : Nat
  /-- The look-ups in the order of their arrival. -/
  arrived : List Lookup

/-- What a look-up that has arrived can do. -/
inductive Turn where
  | acquire
  | read
  | remove
  | receive
  | store
  | release
  | clear
  | abandon
  deriving DecidableEq, Repr

/-- What can happen. A look-up that has arrived is named by its place. -/
inductive Move where
  | arrive (id dataset : String)
  | turn (i : Nat) (t : Turn)
  deriving DecidableEq, Repr

namespace Lookups

def start (c : Cache) : Lookups :=
  ⟨c, ∅, 0, []⟩

def inFlight (s : Lookups) : Nat :=
  s.locks.size

/-- A look-up arrives and refers to the lock of its key, which is made if there is none. -/
def arrive (s : Lookups) (id dataset : String) : Lookups :=
  let key := Metadata.key (address dataset)
  match s.locks.get? key with
  | some lock => { s with arrived := s.arrived ++ [⟨id, dataset, lock, .waiting, none⟩] }
  | none =>
    { s with
      locks := s.locks.insert key s.issued
      issued := s.issued + 1
      arrived := s.arrived ++ [⟨id, dataset, s.issued, .waiting, none⟩] }

/-- The locks after a look-up has looked whether anybody refers to the lock of its key. -/
def clearedLocks (s : Lookups) (key : String) : Table Nat :=
  match s.locks.get? key with
  | some lock => if s.arrived.any (Lookup.refersTo lock) then s.locks else s.locks.erase key
  | none => s.locks

/-- The state with another look-up in the place of look-up `i`, and with another cache. -/
def put (s : Lookups) (i : Nat) (r : Lookup × Cache) : Lookups :=
  { s with cache := r.2, arrived := s.arrived.set i r.1 }

/-- The state with look-up `i`, which is `l`, at another stage. -/
def putStage (s : Lookups) (i : Nat) (l : Lookup) (stage : Stage) : Lookups :=
  s.put i ({ l with stage }, s.cache)

/-- The state after a turn of look-up `i`, which is `l`, if the turn is possible. -/
def turn (source : Source) (s : Lookups) (i : Nat) (l : Lookup) (t : Turn) : Option Lookups :=
  match t, l.stage with
  | .acquire, .waiting =>
    if s.arrived.any (Lookup.holds l.lock) then none else some (s.putStage i l .reading)
  | .read, .reading => some (s.put i (l.read s.cache))
  | .remove, .removing => some (s.put i (l.remove s.cache))
  | .receive, .fetching => some (s.put i (l.receive source, s.cache))
  | .store, .storing body root => some (s.put i (l.store s.cache body root))
  | .release, .finished => some (s.putStage i l .leaving)
  | .clear, .leaving => some { s.putStage i l .gone with locks := s.clearedLocks l.key }
  | .abandon, .waiting => some (s.putStage i l .gone)
  | .abandon, stage => if stage.isHolding then some (s.putStage i l .leaving) else none
  | _, _ => none

/-- The state after a move, if the move is possible. -/
def step (source : Source) (s : Lookups) : Move → Option Lookups
  | .arrive id dataset => some (s.arrive id dataset)
  | .turn i t => s.arrived[i]?.bind fun l => s.turn source i l t

/-- The state after some moves, if all of them are possible. Each comes with the source as it stands
at the time. -/
def run (s : Lookups) (moves : List (Source × Move)) : Option Lookups :=
  moves.foldlM (fun s m => s.step m.1 m.2) s

/-- The state after some moves. Those that are not possible are passed over. -/
def follow (source : Source) (s : Lookups) (moves : List Move) : Lookups :=
  moves.foldl (fun s m => (s.step source m).getD s) s

/-- Look-up `i` runs to its end, whatever it finds. -/
def course (i : Nat) : List Move :=
  [Turn.acquire, .read, .remove, .receive, .store, .release, .clear].map (.turn i)

/-- All look-ups arrive, and then each of them runs to its end. -/
def schedule (asks : List (String × String)) : List Move :=
  (asks.map fun a => .arrive a.1 a.2) ++ (List.range asks.length).flatMap course

/-- The state after look-ups that arrive together, given as identifiers with datasets. -/
def serve (source : Source) (c : Cache) (asks : List (String × String)) : Lookups :=
  (start c).follow source (schedule asks)

def answers (s : Lookups) : List (Except Fault Element) :=
  s.arrived.filterMap Lookup.answer

end Lookups

end CoverageAccess
