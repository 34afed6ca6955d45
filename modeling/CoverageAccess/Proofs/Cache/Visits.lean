import CoverageAccess.Cache.Basic
import CoverageAccess.Proofs.Outcome
/-!
# Look-ups one after the other

`Got` lists what one look-up can answer and leave behind, so that no later proof unfolds
`Cache.get`. `Cache.visits` is a run of look-ups, each with the source as it stands at the time:
it keeps with every look-up the cache that the look-up finds.
-/

namespace CoverageAccess

open Markup Metadata

/-- The source answers with a metadata document. -/
def Metadata.Serves (source : Source) (address : String) : Prop :=
  ∃ body root, source address = .ok body ∧ decode body = .ok root

/-- The place holds a metadata document. -/
def Slot.IsDocument (s : Slot) : Prop :=
  ∃ body root, s = .file body ∧ decode body = .ok root

/-- The place holds a file that is no metadata document. -/
def Slot.isUnreadable : Slot → Bool
  | .file body => !(decode body).isOk
  | _ => false

/-- What is in the place can be answered from, or is not there. -/
def Slot.IsSound (s : Slot) : Prop :=
  s = .vacant ∨ s.IsDocument

namespace Slot

variable {body : List UInt8} {root : Element} {cause : Unfit}

@[simp] theorem isUnreadable_vacant : vacant.isUnreadable = false := rfl

@[simp] theorem isUnreadable_blocked (cause : Files.Failure) :
    (blocked cause).isUnreadable = false := rfl

theorem isUnreadable_file_of_ok (h : decode body = .ok root) :
    (file body).isUnreadable = false := by
  simp only [isUnreadable, h]
  rfl

theorem isUnreadable_file_of_error (h : decode body = .error cause) :
    (file body).isUnreadable = true := by
  simp only [isUnreadable, h]
  rfl

theorem IsSound.isUnreadable_eq_false {s : Slot} (h : s.IsSound) : s.isUnreadable = false := by
  obtain rfl | ⟨body, root, rfl, hroot⟩ := h
  · rfl
  · exact isUnreadable_file_of_ok hroot

theorem IsSound.ne_blocked {s : Slot} (h : s.IsSound) (cause : Files.Failure) :
    s ≠ .blocked cause := by
  obtain rfl | ⟨body, root, rfl, -⟩ := h <;> exact Slot.noConfusion

end Slot

namespace Metadata

variable {source : Source} {id a : String} {body : List UInt8} {root : Element} {f : Fault}

theorem obtain_eq_ok_iff :
    obtain source id a = .ok (body, root) ↔ source a = .ok body ∧ decode body = .ok root := by
  simp only [obtain, bind_eq_ok_iff, mapError_eq_ok_iff, pure_eq_ok_iff, Prod.mk.injEq]
  constructor
  · rintro ⟨body, hbody, root, hroot, rfl, rfl⟩
    exact ⟨hbody, hroot⟩
  · rintro ⟨hbody, hroot⟩
    exact ⟨body, hbody, root, hroot, rfl, rfl⟩

theorem obtain_eq_error_iff :
    obtain source id a = .error f ↔
      (∃ u, source a = .error u ∧ u.fault = f) ∨
        ∃ body, source a = .ok body ∧ ∃ cause, decode body = .error cause ∧
          unfitBody id a cause = f := by
  simp only [obtain, bind_eq_error_iff, mapError_eq_error_iff, mapError_eq_ok_iff, pure,
    Except.pure, reduceCtorEq, and_false, exists_false, or_false]

theorem not_serves_of_obtain (h : obtain source id a = .error f) : ¬Serves source a := by
  rintro ⟨body, root, hbody, hroot⟩
  rw [obtain_eq_ok_iff.2 ⟨hbody, hroot⟩] at h
  cases h

instance : Decidable (Serves source a) :=
  match hbody : source a with
  | .error u => isFalse fun ⟨_, _, h, _⟩ => by
      rw [hbody] at h
      cases h
  | .ok body =>
    match hroot : decode body with
    | .error cause => isFalse fun ⟨_, _, h, h'⟩ => by
        obtain rfl := Except.ok.inj (hbody.symm.trans h)
        rw [hroot] at h'
        cases h'
    | .ok root => isTrue ⟨body, root, hbody, hroot⟩

/-- A source with one metadata document and otherwise empty bodies. -/
def singleSource : Source := fun a =>
  .ok (if a = "sst.dmr.xml" then "<Dataset/>".toUTF8.toList else [])

end Metadata

namespace Cache

/-- The addresses with a key that the source was asked for, in order. -/
def fetches (c : Cache) (k : String) : List String :=
  c.asked.filter fun a => Metadata.key a = k

theorem fetches_of_asked {c c' : Cache} {a : String} (h : c'.asked = c.asked ++ [a]) :
    c'.fetches (Metadata.key a) = c.fetches (Metadata.key a) ++ [a] := by
  simp only [fetches, h, List.filter_append, decide_true, List.filter_cons_of_pos,
    List.filter_nil]

/-- What a look-up can answer and leave behind. -/
inductive Got (source : Source) (c : Cache) (id dataset : String) :
    Except Fault Element → Cache → Prop
  | hit {body : List UInt8} {root : Element}
      (found : c.slots (key (address dataset)) = .file body) (fit : decode body = .ok root) :
      Got source c id dataset (.ok (named id root))
        { c with tally := { c.tally with hits := c.tally.hits + 1 } }
  | evicted {body : List UInt8} {cause : Unfit}
      (found : c.slots (key (address dataset)) = .file body)
      (unfit : decode body = .error cause) :
      Got source c id dataset (.error (unreadable id))
        { c with
          slots := place c.slots (key (address dataset)) .vacant
          tally :=
            { c.tally with hits := c.tally.hits + 1, evictions := c.tally.evictions + 1 } }
  | stored {body : List UInt8} {root : Element}
      (found : c.slots (key (address dataset)) = .vacant)
      (obtained : obtain source id (address dataset) = .ok (body, root)) :
      Got source c id dataset (.ok (named id root))
        { c with
          slots := place c.slots (key (address dataset)) (.file body)
          tally := { c.tally with misses := c.tally.misses + 1 }
          asked := c.asked ++ [address dataset] }
  | failed {f : Fault} (found : c.slots (key (address dataset)) = .vacant)
      (failed : obtain source id (address dataset) = .error f) :
      Got source c id dataset (.error f)
        { c with
          tally := { c.tally with misses := c.tally.misses + 1 }
          asked := c.asked ++ [address dataset] }
  | blocked {cause : Files.Failure}
      (found : c.slots (key (address dataset)) = .blocked cause) :
      Got source c id dataset (.error (c.blockedFault (key (address dataset)) cause)) c

theorem got (source : Source) (c : Cache) (id dataset : String) :
    Got source c id dataset (c.get source id dataset).1 (c.get source id dataset).2 := by
  unfold get
  dsimp only
  split
  next body found =>
    unfold getKept
    split
    next root fit => exact .hit found fit
    next cause unfit => exact .evicted found unfit
  next found =>
    unfold getFetched
    dsimp only
    split
    next body root obtained => exact .stored found obtained
    next f failed => exact .failed found failed
  next cause found => exact .blocked found

/-- A look-up leaves the files of all other keys alone. -/
theorem Got.slots_of_ne {source : Source} {c c' : Cache} {id dataset k : String}
    {x : Except Fault Element} (g : Got source c id dataset x c') (h : k ≠ key (address dataset)) :
    c'.slots k = c.slots k := by
  cases g with
  | hit | failed | blocked => rfl
  | evicted | stored => simp only [place_of_ne _ _ h]

end Cache

/-- A request for the metadata document of a dataset, with the source as it stands at the time. -/
structure Ask where
  source : Source
  id : String
  dataset : String

/-- A look-up with the cache that it finds. -/
structure Visit extends Ask where
  before : Cache

namespace Visit

def address (v : Visit) : String :=
  Metadata.address v.dataset

def key (v : Visit) : String :=
  Metadata.key v.address

def answer (v : Visit) : Except Fault Element :=
  (v.before.get v.source v.id v.dataset).1

def after (v : Visit) : Cache :=
  (v.before.get v.source v.id v.dataset).2

/-- What the look-up finds in the place of its file. -/
def found (v : Visit) : Slot :=
  v.before.slots v.key

theorem got (v : Visit) : Cache.Got v.source v.before v.id v.dataset v.answer v.after :=
  Cache.got ..

theorem after_slots_of_ne (v : Visit) {k : String} (h : k ≠ v.key) :
    v.after.slots k = v.before.slots k :=
  v.got.slots_of_ne h

end Visit

namespace Cache

/-- The look-ups that are asked for, one after the other. -/
def visits (c : Cache) : List Ask → List Visit
  | [] => []
  | a :: r => ⟨a, c⟩ :: visits (Visit.mk a c).after r

/-- The cache after some look-ups. -/
def afterAll (c : Cache) : List Ask → Cache
  | [] => c
  | a :: r => afterAll (Visit.mk a c).after r

/-- What holds of a cache and is kept by every look-up, holds of what every look-up finds. -/
theorem before_of_mem_visits {P : Cache → Prop} {c : Cache} {asks : List Ask}
    (hstep : ∀ v : Visit, P v.before → P v.after) (hc : P c) {v : Visit}
    (hv : v ∈ c.visits asks) : P v.before := by
  induction asks generalizing c with
  | nil => cases hv
  | cons a r ih =>
      rcases List.mem_cons.1 hv with rfl | hv
      · exact hc
      · exact ih (hstep ⟨a, c⟩ hc) hv

end Cache

end CoverageAccess
