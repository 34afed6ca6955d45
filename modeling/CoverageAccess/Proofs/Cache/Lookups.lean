import CoverageAccess.Cache.Lookups
import CoverageAccess.Proofs.Cache.Visits
/-!
# Turns of look-ups

`Turned` lists what a look-up can do in its turn, with what is after it, so that no proof about runs
unfolds `Lookups.turn`. A look-up that has its lock and is not disturbed does what `Cache.get` does
(`follow_work`), and as long as a look-up is not gone, one can go on (`exists_step_of_ne_gone`).
`run_induction` carries over a run what every step of it keeps.
-/

namespace CoverageAccess

open Markup Metadata

namespace Lookup

variable {source : Source} {c : Cache} {l : Lookup} {body : List UInt8} {root : Element}

theorem isLive_of_isHolding (h : l.stage.isHolding = true) : l.isLive = true := by
  simp [isLive, h]

theorem read_of_vacant (h : c.slots l.key = .vacant) :
    l.read c = ({ l with stage := .fetching },
      { c with
        tally := { c.tally with misses := c.tally.misses + 1 }
        asked := c.asked ++ [l.address] }) := by
  simp only [read, h]

theorem read_of_document (h : c.slots l.key = .file body) (hroot : decode body = .ok root) :
    l.read c = (l.finish (.ok (named l.id root)),
      { c with tally := { c.tally with hits := c.tally.hits + 1 } }) := by
  simp only [read, h, hroot]

theorem read_of_unreadable {cause : Unfit} (h : c.slots l.key = .file body)
    (hcause : decode body = .error cause) :
    l.read c = ({ l with stage := .removing },
      { c with
        tally :=
          { c.tally with hits := c.tally.hits + 1, evictions := c.tally.evictions + 1 } }) := by
  simp only [read, h, hcause]

theorem read_of_blocked {cause : Files.Failure} (h : c.slots l.key = .blocked cause) :
    l.read c = (l.finish (.error (c.blockedFault l.key cause)), c) := by
  simp only [read, h]

/-- Reading changes no file, and the source is asked for no other address. -/
theorem read_cases (c : Cache) (l : Lookup) :
    (l.read c).1.dataset = l.dataset ∧ (l.read c).1.lock = l.lock ∧
      (l.read c).1.stage.isHolding = true ∧ (l.read c).2.slots = c.slots ∧
      ((l.read c).2.asked = c.asked ∨ (l.read c).2.asked = c.asked ++ [l.address]) := by
  unfold read
  split
  · split
    · exact ⟨rfl, rfl, rfl, rfl, .inl rfl⟩
    · exact ⟨rfl, rfl, rfl, rfl, .inl rfl⟩
  · exact ⟨rfl, rfl, rfl, rfl, .inr rfl⟩
  · exact ⟨rfl, rfl, rfl, rfl, .inl rfl⟩

theorem receive_cases (source : Source) (l : Lookup) :
    (l.receive source).dataset = l.dataset ∧ (l.receive source).lock = l.lock ∧
      (l.receive source).stage.isHolding = true := by
  unfold receive
  split <;> exact ⟨rfl, rfl, rfl⟩

theorem receive_of_document (h : obtain source l.id l.address = .ok (body, root)) :
    l.receive source = { l with stage := .storing body root } := by
  simp only [receive, h]

theorem receive_of_failure {f : Fault} (h : obtain source l.id l.address = .error f) :
    l.receive source = l.finish (.error f) := by
  simp only [receive, h]

/-- From a source that serves the address, a look-up receives a metadata document. -/
theorem receive_of_serves (h : Serves source l.address) :
    ∃ body root, decode body = .ok root ∧
      l.receive source = { l with stage := .storing body root } := by
  obtain ⟨body, root, hbody, hroot⟩ := h
  exact ⟨body, root, hroot, receive_of_document (obtain_eq_ok_iff.2 ⟨hbody, hroot⟩)⟩

end Lookup

namespace Lookups

/-- What a look-up `l` can do in the state `s`: its turn, and the look-up, the cache and the locks
after it. -/
inductive Turned (source : Source) (s : Lookups) (l : Lookup) :
    Turn → Lookup → Cache → Table Nat → Prop
  | acquire (waits : l.stage = .waiting) (free : ∀ o ∈ s.arrived, o.holds l.lock = false) :
      Turned source s l .acquire { l with stage := .reading } s.cache s.locks
  | read (reads : l.stage = .reading) :
      Turned source s l .read (l.read s.cache).1 (l.read s.cache).2 s.locks
  | remove (removes : l.stage = .removing) :
      Turned source s l .remove (l.remove s.cache).1 (l.remove s.cache).2 s.locks
  | receive (fetches : l.stage = .fetching) :
      Turned source s l .receive (l.receive source) s.cache s.locks
  | store {body : List UInt8} {root : Element} (stores : l.stage = .storing body root) :
      Turned source s l .store (l.store s.cache body root).1 (l.store s.cache body root).2 s.locks
  | release (finished : l.stage = .finished) :
      Turned source s l .release { l with stage := .leaving } s.cache s.locks
  | clear (leaves : l.stage = .leaving) :
      Turned source s l .clear { l with stage := .gone } s.cache (s.clearedLocks l.key)
  | withdraw (waits : l.stage = .waiting) :
      Turned source s l .abandon { l with stage := .gone } s.cache s.locks
  | drop (holds : l.stage.isHolding = true) :
      Turned source s l .abandon { l with stage := .leaving } s.cache s.locks

variable {source : Source} {s s' t : Lookups} {l l' : Lookup} {i : Nat} {u : Turn} {c : Cache}
  {locks : Table Nat} {k : String}

theorem turned_of_turn (h : s.turn source i l u = some s') :
    ∃ l', s'.arrived = s.arrived.set i l' ∧ Turned source s l u l' s'.cache s'.locks := by
  unfold turn at h
  split at h
  next hstage =>
    split at h
    · cases h
    next hfree =>
      cases h
      exact ⟨_, rfl, .acquire hstage (by simpa using hfree)⟩
  next hstage =>
    cases h
    exact ⟨_, rfl, .read hstage⟩
  next hstage =>
    cases h
    exact ⟨_, rfl, .remove hstage⟩
  next hstage =>
    cases h
    exact ⟨_, rfl, .receive hstage⟩
  next hstage =>
    cases h
    exact ⟨_, rfl, .store hstage⟩
  next hstage =>
    cases h
    exact ⟨_, rfl, .release hstage⟩
  next hstage =>
    cases h
    exact ⟨_, rfl, .clear hstage⟩
  next hstage =>
    cases h
    exact ⟨_, rfl, .withdraw hstage⟩
  next hstage =>
    split at h
    next hholds =>
      cases h
      exact ⟨_, rfl, .drop hholds⟩
    · cases h
  · cases h

theorem turned_of_step (h : s.step source (.turn i u) = some s') :
    ∃ l l', s.arrived[i]? = some l ∧ s'.arrived = s.arrived.set i l' ∧
      Turned source s l u l' s'.cache s'.locks := by
  obtain ⟨l, hl, hturn⟩ := Option.bind_eq_some_iff.1 h
  obtain ⟨l', hturned⟩ := turned_of_turn hturn
  exact ⟨l, l', hl, hturned⟩

namespace Turned

theorem dataset_eq (g : Turned source s l u l' c locks) : l'.dataset = l.dataset := by
  cases g with
  | read => exact (Lookup.read_cases ..).1
  | receive => exact (Lookup.receive_cases ..).1
  | _ => rfl

theorem address_eq (g : Turned source s l u l' c locks) : l'.address = l.address :=
  congrArg Metadata.address g.dataset_eq

theorem key_eq (g : Turned source s l u l' c locks) : l'.key = l.key :=
  congrArg Metadata.key g.address_eq

theorem lock_eq (g : Turned source s l u l' c locks) : l'.lock = l.lock := by
  cases g with
  | read => exact (Lookup.read_cases ..).2.1
  | receive => exact (Lookup.receive_cases ..).2.1
  | _ => rfl

/-- A look-up that holds its lock held it before, or nobody did. -/
theorem isHolding (g : Turned source s l u l' c locks) (h : l'.stage.isHolding = true) :
    l.stage.isHolding = true ∨ ∀ o ∈ s.arrived, o.holds l.lock = false := by
  cases g with
  | acquire _ free => exact .inr free
  | read hstage | remove hstage | receive hstage | store hstage | release hstage =>
      exact .inl (by rw [hstage]; rfl)
  | clear | withdraw | drop => cases h

/-- A look-up that has a lock had it before. -/
theorem isLive (g : Turned source s l u l' c locks) (h : l'.isLive = true) :
    l.isLive = true := by
  cases g with
  | acquire hstage | read hstage | remove hstage | receive hstage | store hstage
  | release hstage => simp [Lookup.isLive, hstage, Stage.isWaiting, Stage.isHolding]
  | clear | withdraw | drop => cases h

theorem locks_eq (g : Turned source s l u l' c locks) :
    locks = s.locks ∨ locks = s.clearedLocks l.key := by
  cases g with
  | clear => exact .inr rfl
  | _ => exact .inl rfl

/-- A turn changes nothing under other keys. -/
theorem slots_of_ne (g : Turned source s l u l' c locks) (h : k ≠ l.key) :
    c.slots k = s.cache.slots k := by
  cases g with
  | read => rw [(Lookup.read_cases ..).2.2.2.1]
  | remove => simp only [Lookup.remove, Cache.place_of_ne _ _ h]
  | store => simp only [Lookup.store, Cache.place_of_ne _ _ h]
  | _ => rfl

/-- In its turn, a look-up asks the source for its own address at most. -/
theorem fetches_of_ne (g : Turned source s l u l' c locks) (h : k ≠ l.key) :
    c.fetches k = s.cache.fetches k := by
  have hself : ¬Metadata.key l.address = k := Ne.symm h
  cases g with
  | read =>
      obtain hasked | hasked := (Lookup.read_cases s.cache l).2.2.2.2 <;>
        simp [Cache.fetches, hasked, hself]
  | _ => rfl

end Turned

/-- What every step of a run keeps holds at its end. Each step comes with a run from there to the
end. -/
theorem run_induction {P : Lookups → Prop} {moves : List (Source × Move)}
    (h : s.run moves = some t) (hs : P s)
    (hstep : ∀ m ∈ moves, ∀ r r', P r → r.step m.1 m.2 = some r' →
      (∃ rest, r.run rest = some t) → P r') : P t := by
  induction moves generalizing s with
  | nil => exact Option.some.inj h ▸ hs
  | cons m rest ih =>
      have hrun := h
      rw [run, List.foldlM_cons] at h
      obtain ⟨r, hr, hrest⟩ := Option.bind_eq_some_iff.1 h
      exact ih hrest (hstep m List.mem_cons_self s r hs hr ⟨_, hrun⟩)
        fun n hn => hstep n (List.mem_cons_of_mem _ hn)

theorem step_turn (hl : s.arrived[i]? = some l) :
    s.step source (.turn i u) = s.turn source i l u := by
  rw [step, hl, Option.bind_some]

theorem getElem?_put (hl : s.arrived[i]? = some l) : (s.put i (l', c)).arrived[i]? = some l' :=
  List.getElem?_set_self (List.getElem?_eq_some_iff.1 hl).1

@[simp] theorem put_put (s : Lookups) (i : Nat) (p q : Lookup × Cache) :
    (s.put i p).put i q = s.put i q := by
  simp [put]

/-- A look-up that holds its lock can go on. -/
theorem exists_step_of_isHolding (source : Source) (hl : s.arrived[i]? = some l)
    (h : l.stage.isHolding = true) :
    ∃ u s', u ≠ .abandon ∧ s.step source (.turn i u) = some s' := by
  simp only [step_turn hl]
  cases hstage : l.stage with
  | waiting | leaving | gone => simp [hstage, Stage.isHolding] at h
  | reading => exact ⟨.read, _, Turn.noConfusion, by simp [turn, hstage]; rfl⟩
  | removing => exact ⟨.remove, _, Turn.noConfusion, by simp [turn, hstage]; rfl⟩
  | fetching => exact ⟨.receive, _, Turn.noConfusion, by simp [turn, hstage]; rfl⟩
  | storing body root => exact ⟨.store, _, Turn.noConfusion, by simp [turn, hstage]; rfl⟩
  | finished => exact ⟨.release, _, Turn.noConfusion, by simp [turn, hstage]; rfl⟩

/-- As long as a look-up is not gone, one of the look-ups can go on: a look-up that waits for its
lock can take it, or another one holds it. -/
theorem exists_step_of_ne_gone (source : Source) (hl : s.arrived[i]? = some l)
    (h : l.stage ≠ .gone) :
    ∃ j u s', u ≠ .abandon ∧ s.step source (.turn j u) = some s' := by
  by_cases hholds : l.stage.isHolding = true
  · exact ⟨i, exists_step_of_isHolding source hl hholds⟩
  cases hstage : l.stage with
  | reading | removing | fetching | storing | finished =>
      exact absurd (by rw [hstage]; rfl) hholds
  | gone => exact absurd hstage h
  | leaving => exact ⟨i, .clear, _, Turn.noConfusion, by simp [step_turn hl, turn, hstage]; rfl⟩
  | waiting =>
      by_cases hfree : s.arrived.any (Lookup.holds l.lock) = true
      · obtain ⟨o, ho, hlock⟩ := List.any_eq_true.1 hfree
        obtain ⟨j, hj⟩ := List.getElem?_of_mem ho
        exact ⟨j, exists_step_of_isHolding source hj (Bool.and_eq_true_iff.1 hlock).2⟩
      · exact ⟨i, .acquire, _, Turn.noConfusion, by simp [step_turn hl, turn, hstage, hfree]; rfl⟩

/-- The turns in which look-up `i` does its work, whatever it finds. -/
def work (i : Nat) : List Move :=
  [Turn.read, .remove, .receive, .store].map (.turn i)

theorem follow_turn {r : List Move} (hl : s.arrived[i]? = some l)
    (h : s.turn source i l u = some s') :
    s.follow source (.turn i u :: r) = s'.follow source r := by
  rw [follow, List.foldl_cons, step_turn hl, h, Option.getD_some, follow]

theorem follow_idle {r : List Move} (hl : s.arrived[i]? = some l)
    (h : s.turn source i l u = none) :
    s.follow source (.turn i u :: r) = s.follow source r := by
  rw [follow, List.foldl_cons, step_turn hl, h, Option.getD_none, follow]

/-- A look-up that has finished has no more work to do. -/
theorem follow_finished (hl : s.arrived[i]? = some l) (hstage : l.stage = .finished)
    {turns : List Turn} (hturns : turns ⊆ [.read, .remove, .receive, .store]) :
    s.follow source (turns.map (.turn i)) = s := by
  induction turns with
  | nil => rfl
  | cons u r ih =>
      obtain ⟨hu, hr⟩ := List.cons_subset.1 hturns
      have hidle : s.turn source i l u = none := by
        simp only [List.mem_cons, List.not_mem_nil, or_false] at hu
        obtain rfl | rfl | rfl | rfl := hu <;> simp only [turn, hstage]
      rw [List.map_cons, follow_idle hl hidle]
      exact ih hr

/-- A look-up that has its lock and does its work undisturbed does what `Cache.get` does. -/
theorem follow_work (hl : s.arrived[i]? = some l) (hstage : l.stage = .reading) :
    s.follow source (work i) =
      s.put i (l.finish (s.cache.get source l.id l.dataset).1,
        (s.cache.get source l.id l.dataset).2) := by
  have g := Cache.got source s.cache l.id l.dataset
  generalize (s.cache.get source l.id l.dataset).1 = x,
    (s.cache.get source l.id l.dataset).2 = c' at g ⊢
  have hread : s.turn source i l .read = some (s.put i (l.read s.cache)) := by
    simp only [turn, hstage]
  rw [work, List.map_cons, follow_turn hl hread]
  cases g with
  | hit found fit =>
      rw [Lookup.read_of_document found fit]
      exact follow_finished (getElem?_put hl) rfl (by simp)
  | evicted found unfit =>
      rw [Lookup.read_of_unreadable found unfit, List.map_cons,
        follow_turn (getElem?_put hl) rfl, put_put]
      exact follow_finished (getElem?_put hl) rfl (by simp)
  | @stored body root found obtained =>
      have hreceive : Lookup.receive source { l with stage := .fetching } =
          { l with stage := .storing body root } := Lookup.receive_of_document obtained
      rw [Lookup.read_of_vacant found, List.map_cons, follow_idle (getElem?_put hl) rfl,
        List.map_cons, follow_turn (getElem?_put hl) rfl, put_put,
        hreceive, List.map_cons, follow_turn (getElem?_put hl) rfl, put_put]
      rfl
  | @failed f found failed =>
      have hreceive : Lookup.receive source { l with stage := .fetching } =
          l.finish (.error f) := Lookup.receive_of_failure failed
      rw [Lookup.read_of_vacant found, List.map_cons, follow_idle (getElem?_put hl) rfl,
        List.map_cons, follow_turn (getElem?_put hl) rfl, put_put,
        hreceive]
      exact follow_finished (getElem?_put hl) rfl (by simp)
  | blocked found =>
      rw [Lookup.read_of_blocked found]
      exact follow_finished (getElem?_put hl) rfl (by simp)

end Lookups

end CoverageAccess
