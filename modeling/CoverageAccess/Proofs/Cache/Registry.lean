import Mathlib.Data.Finset.Card
import CoverageAccess.Proofs.Cache.Exclusion
/-!
# What stays in the registry

A look-up that has let go of its lock clears the entry of its key away unless somebody refers to the
lock; a look-up that is abandoned while it waits clears nothing. So when all look-ups of a key are
gone, the registry still has an entry for it exactly if the last that happened to one of them
(`lastMove`) was that it was abandoned. `registered_iff_abandoned` states this together with what it
means for the number of locks: it is the number of keys that are held or waited for exactly if no key
has been left in that way.
-/

namespace CoverageAccess

open Markup Metadata

namespace Lookups

/-- No look-up of the key holds its lock, waits for it, or has still to clear it away. -/
def Quiet (s : Lookups) (k : String) : Prop :=
  ∀ l ∈ s.arrived, l.key = k → l.stage = .gone

/-- The keys that are held or waited for. -/
def liveKeys (s : Lookups) : Finset String :=
  ((s.arrived.filter Lookup.isLive).map Lookup.key).toFinset

/-- The move is an arrival or a turn of a look-up of the key. -/
def concerns (s : Lookups) (k : String) : Move → Bool
  | .arrive _ dataset => key (address dataset) == k
  | .turn i _ => s.arrived[i]?.any fun l => l.key == k

/-- The last move of a run that concerns the key. -/
def lastMove (k : String) (s : Lookups) : List (Source × Move) → Option Move
  | [] => none
  | m :: rest =>
    ((s.step m.1 m.2).bind fun r => lastMove k r rest).or
      (if s.concerns k m.2 then some m.2 else none)

/-- Every lock in the registry has been issued, and no two keys share one. -/
structure Distinct (s : Lookups) : Prop where
  lt_issued : ∀ k n, s.locks.get? k = some n → n < s.issued
  injective : ∀ j k n, s.locks.get? j = some n → s.locks.get? k = some n → j = k

variable {source : Source} {s s' t : Lookups} {l l' : Lookup} {i : Nat} {u : Turn} {m : Move}
  {id dataset j k : String} {n : Nat} {c : Cache} {moves : List (Source × Move)}

theorem mem_liveKeys : k ∈ s.liveKeys ↔ ∃ l ∈ s.arrived, l.isLive = true ∧ l.key = k := by
  simp [liveKeys, and_assoc]

/-- Clearing takes entries away and changes none. -/
theorem get?_of_get?_clearedLocks (h : (s.clearedLocks k).get? j = some n) :
    s.locks.get? j = some n := by
  unfold clearedLocks at h
  split at h
  · split at h
    · exact h
    · rw [Table.get?_erase] at h
      split at h
      · cases h
      · exact h
  · exact h

theorem get?_clearedLocks_of_ne (h : k ≠ j) : (s.clearedLocks j).get? k = s.locks.get? k := by
  unfold clearedLocks
  split
  · split
    · rfl
    · rw [Table.get?_erase, if_neg h]
  · rfl

theorem get?_clearedLocks_of_unused
    (h : ∀ lock, s.locks.get? k = some lock → ∀ o ∈ s.arrived, o.refersTo lock = false) :
    (s.clearedLocks k).get? k = none := by
  unfold clearedLocks
  split
  next lock hlock =>
    rw [if_neg (by simpa using h lock hlock), Table.get?_erase, if_pos rfl]
  next hnone => exact hnone

theorem issued_eq_of_step (h : s.step source (.turn i u) = some s') : s'.issued = s.issued := by
  obtain ⟨l, -, hturn⟩ := Option.bind_eq_some_iff.1 h
  unfold turn at hturn
  split at hturn <;> try split at hturn
  all_goals cases hturn
  all_goals rfl

namespace Distinct

theorem start (c : Cache) : Distinct (start c) where
  lt_issued _ _ h := by cases h
  injective _ _ _ h := by cases h

theorem arrive (h : s.Distinct) (id dataset : String) : (s.arrive id dataset).Distinct := by
  unfold Lookups.arrive
  dsimp only
  split
  · exact ⟨h.lt_issued, h.injective⟩
  · have hcases {k : String} {n : Nat}
        (hk : (s.locks.insert (key (address dataset)) s.issued).get? k = some n) :
        (k = key (address dataset) ∧ n = s.issued) ∨ s.locks.get? k = some n ∧ n < s.issued := by
      rw [Table.get?_insert] at hk
      split at hk
      next heq => exact .inl ⟨heq, (Option.some.inj hk).symm⟩
      · exact .inr ⟨hk, h.lt_issued _ _ hk⟩
    refine ⟨fun k n hk => ?_, fun j k n hj hk => ?_⟩
    · obtain ⟨-, rfl⟩ | ⟨-, hlt⟩ := hcases hk
      · exact Nat.lt_succ_self _
      · exact Nat.lt_succ_of_lt hlt
    · obtain ⟨rfl, rfl⟩ | ⟨hj, hltj⟩ := hcases hj <;>
        obtain ⟨rfl, hnk⟩ | ⟨hk, hltk⟩ := hcases hk
      · rfl
      · exact absurd hltk (Nat.lt_irrefl _)
      · exact absurd (hnk ▸ hltj) (Nat.lt_irrefl _)
      · exact h.injective j k n hj hk

theorem turn (h : s.Distinct) (hturn : s.step source (.turn i u) = some s') : s'.Distinct := by
  obtain ⟨l, l', -, -, g⟩ := turned_of_step hturn
  have hold {k : String} {n : Nat} (hk : s'.locks.get? k = some n) : s.locks.get? k = some n := by
    obtain hlocks | hlocks := g.locks_eq
    · exact hlocks ▸ hk
    · exact get?_of_get?_clearedLocks (hlocks ▸ hk)
  refine ⟨fun k n hk => ?_, fun j k n hj hk => h.injective j k n (hold hj) (hold hk)⟩
  rw [issued_eq_of_step hturn]
  exact h.lt_issued k n (hold hk)

theorem step (h : s.Distinct) (hstep : s.step source m = some s') : s'.Distinct := by
  cases m with
  | arrive id dataset => exact Option.some.inj hstep ▸ h.arrive id dataset
  | turn i u => exact h.turn hstep

theorem run (h : (Lookups.start c).run moves = some s) : s.Distinct :=
  run_induction h (start c) fun _ _ _ _ hr hstep _ => hr.step hstep

end Distinct

theorem concerns_turn_iff (hl : s.arrived[i]? = some l) :
    s.concerns k (.turn i u) = true ↔ l.key = k := by
  simp [concerns, hl]

/-- A look-up that arrives is not gone. -/
theorem not_quiet_arrive (s : Lookups) (id dataset : String) :
    ¬(s.arrive id dataset).Quiet (key (address dataset)) := by
  obtain ⟨lock, harrived, -⟩ := arrive_cases s id dataset
  intro hquiet
  have hgone := hquiet ⟨id, dataset, lock, .waiting, none⟩ (by simp [harrived]) rfl
  cases hgone

theorem get?_arrive_of_ne (h : k ≠ key (address dataset)) :
    (s.arrive id dataset).locks.get? k = s.locks.get? k := by
  unfold arrive
  dsimp only
  split
  · rfl
  · exact Table.get?_insert_of_ne _ _ h

/-- Who has another place than the one that is changed is still there. -/
theorem mem_set_of_ne {arrived : List Lookup} {j : Nat} {o : Lookup} (hij : i ≠ j)
    (hj : arrived[j]? = some o) : o ∈ arrived.set i l := by
  have hj' : (arrived.set i l)[j]? = some o := by rw [List.getElem?_set_ne hij, hj]
  exact List.mem_of_getElem? hj'

/-- A move that does not concern a key leaves its entry and its look-ups alone. -/
theorem step_of_not_concerns (hstep : s.step source m = some s') (h : s.concerns k m = false) :
    s'.locks.get? k = s.locks.get? k ∧ (s'.Quiet k → s.Quiet k) := by
  cases m with
  | arrive id dataset =>
      obtain rfl := Option.some.inj hstep
      have hne : k ≠ key (address dataset) := fun heq => by simp [concerns, heq] at h
      obtain ⟨lock, harrived, -⟩ := arrive_cases s id dataset
      exact ⟨get?_arrive_of_ne hne, fun hquiet o ho hkey => hquiet o (by simp [harrived, ho]) hkey⟩
  | turn i u =>
      obtain ⟨l, l', hl, harrived, g⟩ := turned_of_step hstep
      have hne : k ≠ l.key := fun heq => by
        rw [(concerns_turn_iff hl).2 heq.symm] at h
        cases h
      refine ⟨?_, fun hquiet o ho hkey => ?_⟩
      · obtain hlocks | hlocks := g.locks_eq
        · rw [hlocks]
        · rw [hlocks, get?_clearedLocks_of_ne hne]
      · obtain ⟨j, hj⟩ := List.getElem?_of_mem ho
        have hij : i ≠ j := by
          rintro rfl
          obtain rfl := Option.some.inj (hl.symm.trans hj)
          exact hne hkey.symm
        exact hquiet o (harrived ▸ mem_set_of_ne hij hj) hkey

/-- If all look-ups of a key are gone when one of them has cleared its lock away, nobody refers to the
lock: whoever refers to the lock of a key is a look-up of the key. -/
theorem refersTo_eq_false_of_quiet {lock : Nat} {o : Lookup} (hg : s.Guarded) (hd : s.Distinct)
    (hl : s.arrived[i]? = some l) (hleaves : l.stage = .leaving)
    (harrived : s'.arrived = s.arrived.set i l') (hquiet : s'.Quiet l.key)
    (hlock : s.locks.get? l.key = some lock) (ho : o ∈ s.arrived) : o.refersTo lock = false := by
  by_contra hrefers
  obtain ⟨heq, hlive⟩ := Bool.and_eq_true_iff.1 (Bool.eq_true_of_not_eq_false hrefers)
  have hkey : o.key = l.key := by
    refine hd.injective _ _ lock ?_ hlock
    rw [hg.shared o ho hlive, eq_of_beq heq]
  obtain ⟨j, hj⟩ := List.getElem?_of_mem ho
  by_cases hij : i = j
  · subst hij
    obtain rfl := Option.some.inj (hl.symm.trans hj)
    simp [Lookup.isLive, hleaves, Stage.isWaiting, Stage.isHolding] at hlive
  · have hstage : o.stage = .gone := hquiet o (harrived ▸ mem_set_of_ne hij hj) hkey
    simp [Lookup.isLive, hstage, Stage.isWaiting, Stage.isHolding] at hlive

/-- The turn after which all look-ups of a key are gone leaves an entry exactly if a look-up was
abandoned. -/
theorem isSome_get?_of_turn (hg : s.Guarded) (hd : s.Distinct) (hl : s.arrived[i]? = some l)
    (harrived : s'.arrived = s.arrived.set i l') (g : Turned source s l u l' s'.cache s'.locks)
    (hquiet : s'.Quiet l.key) : (s'.locks.get? l.key).isSome ↔ u = .abandon := by
  have hi : i < s.arrived.length := (List.getElem?_eq_some_iff.1 hl).1
  have hgone : l'.stage = .gone :=
    hquiet l' (harrived ▸ List.mem_set hi _) g.key_eq
  have hholds (h : l'.stage.isHolding = true) : False := by
    rw [hgone] at h
    cases h
  generalize s'.cache = cache, s'.locks = locks at g ⊢
  cases g with
  | acquire | remove | store | release | drop => cases hgone
  | read => exact (hholds (Lookup.read_cases s.cache l).2.2.1).elim
  | receive => exact (hholds (Lookup.receive_cases source l).2.2).elim
  | withdraw hwaits =>
      have hlive : l.isLive = true := by simp [Lookup.isLive, hwaits, Stage.isWaiting]
      simp [hg.shared l (List.mem_of_getElem? hl) hlive]
  | clear hleaves =>
      have hunused (lock : Nat) (hlock : s.locks.get? l.key = some lock) (o : Lookup)
          (ho : o ∈ s.arrived) : o.refersTo lock = false :=
        refersTo_eq_false_of_quiet hg hd hl hleaves harrived hquiet hlock ho
      simp [get?_clearedLocks_of_unused hunused]

/-- The move after which all look-ups of a key are gone leaves an entry exactly if a look-up was
abandoned. -/
theorem isSome_get?_of_concerns (hg : s.Guarded) (hd : s.Distinct)
    (hstep : s.step source m = some s') (hm : s.concerns k m = true) (hquiet : s'.Quiet k) :
    (s'.locks.get? k).isSome ↔ ∃ i, m = .turn i .abandon := by
  cases m with
  | arrive id dataset =>
      obtain rfl := Option.some.inj hstep
      obtain rfl := eq_of_beq hm
      exact absurd hquiet (not_quiet_arrive s id dataset)
  | turn i u =>
      obtain ⟨l, l', hl, harrived, g⟩ := turned_of_step hstep
      obtain rfl := (concerns_turn_iff hl).1 hm
      rw [isSome_get?_of_turn hg hd hl harrived g hquiet]
      simp

/-- A run without a move that concerns a key leaves its entry and its look-ups alone. -/
theorem run_of_lastMove_eq_none (h : s.run moves = some t) (hlast : lastMove k s moves = none) :
    t.locks.get? k = s.locks.get? k ∧ (t.Quiet k → s.Quiet k) := by
  induction moves generalizing s with
  | nil =>
      obtain rfl := Option.some.inj h
      exact ⟨rfl, fun hquiet => hquiet⟩
  | cons m rest ih =>
      rw [run, List.foldlM_cons] at h
      obtain ⟨r, hr, hrest⟩ := Option.bind_eq_some_iff.1 h
      rw [lastMove, hr, Option.bind_some, Option.or_eq_none_iff] at hlast
      obtain ⟨hlater, hnow⟩ := hlast
      have hm : s.concerns k m.2 = false := by
        by_contra hm
        rw [if_pos (Bool.eq_true_of_not_eq_false hm)] at hnow
        cases hnow
      obtain ⟨hget, hquiet⟩ := ih hrest hlater
      obtain ⟨hget', hquiet'⟩ := step_of_not_concerns hr hm
      exact ⟨hget.trans hget', fun ht => hquiet' (hquiet ht)⟩

/-- At its last move that concerns a key, a run falls into two. -/
theorem exists_run_of_lastMove (h : s.run moves = some t) (hlast : lastMove k s moves = some m) :
    ∃ before source after r r', moves = before ++ (source, m) :: after ∧ s.run before = some r ∧
      r.step source m = some r' ∧ r.concerns k m = true ∧ r'.run after = some t ∧
      lastMove k r' after = none := by
  induction moves generalizing s with
  | nil => cases hlast
  | cons n rest ih =>
      rw [run, List.foldlM_cons] at h
      obtain ⟨r, hr, hrest⟩ := Option.bind_eq_some_iff.1 h
      rw [lastMove, hr, Option.bind_some] at hlast
      obtain hlater | ⟨hnone, hnow⟩ := Option.or_eq_some_iff.1 hlast
      · obtain ⟨before, source, after, x, x', rfl, hbefore, htail⟩ := ih hrest hlater
        refine ⟨n :: before, source, after, x, x', rfl, ?_, htail⟩
        rw [run, List.foldlM_cons]
        exact Option.bind_eq_some_iff.2 ⟨r, hr, hbefore⟩
      · split at hnow
        next hn =>
          obtain rfl := Option.some.inj hnow
          exact ⟨[], n.1, rest, s, r, rfl, rfl, hr, hn, hrest, hnone⟩
        · cases hnow

/-- When all look-ups of a key are gone, it has an entry exactly if the last that happened to them
was that one was abandoned. -/
theorem isSome_get?_iff_of_quiet (h : (start c).run moves = some s) (hquiet : s.Quiet k) :
    (s.locks.get? k).isSome ↔ ∃ i, lastMove k (start c) moves = some (.turn i .abandon) := by
  cases hlast : lastMove k (start c) moves with
  | none =>
      obtain ⟨hget, -⟩ := run_of_lastMove_eq_none h hlast
      have hstart : (start c).locks.get? k = none := rfl
      simp [hget, hstart]
  | some m =>
      obtain ⟨before, source, after, r, r', -, hbefore, hstep, hm, hafter, hnone⟩ :=
        exists_run_of_lastMove h hlast
      obtain ⟨hget, hquiet'⟩ := run_of_lastMove_eq_none hafter hnone
      rw [hget, isSome_get?_of_concerns (.run hbefore) (.run hbefore) hstep hm (hquiet' hquiet)]
      simp

theorem mem_names_iff : k ∈ s.locks.names ↔ (s.locks.get? k).isSome := by
  simp [Table.names, Option.isSome_iff_exists, Table.get?_eq_some_iff]

/-- Every key is in the registry once. -/
theorem inFlight_eq_card (s : Lookups) : s.inFlight = s.locks.names.toFinset.card := by
  have hnodup : s.locks.names.Nodup := List.pairwise_map.2 <|
    s.locks.ascending.imp fun {a b} hlt (heq : a.1 = b.1) => String.lt_irrefl b.1 (heq ▸ hlt)
  rw [List.toFinset_card_of_nodup hnodup, Table.names, List.length_map]
  rfl

theorem liveKeys_subset (hg : s.Guarded) : s.liveKeys ⊆ s.locks.names.toFinset := by
  intro k hk
  obtain ⟨l, hl, hlive, rfl⟩ := mem_liveKeys.1 hk
  rw [List.mem_toFinset, mem_names_iff, hg.shared l hl hlive]
  rfl

/-- Once no look-up has to clear away its lock any more, the look-ups of a key that is neither held
nor waited for are gone. -/
theorem quiet_of_not_mem_liveKeys (hleft : ∀ l ∈ s.arrived, l.stage ≠ .leaving)
    (hk : k ∉ s.liveKeys) : s.Quiet k := by
  intro l hl hkey
  have hlive : l.isLive = false := by
    by_contra hlive
    exact hk (mem_liveKeys.2 ⟨l, hl, Bool.eq_true_of_not_eq_false hlive, hkey⟩)
  have hleaves := hleft l hl
  cases hstage : l.stage <;>
    simp_all [Lookup.isLive, Stage.isWaiting, Stage.isHolding]

/-- The registry after any run. When all look-ups of a key are gone, it has an entry exactly if the
last that happened to them was that one was abandoned. And once no look-up has to clear away its lock
any more, the number of locks is the number of keys that are held or waited for, exactly if each key
whose look-ups ended in that way is held or waited for. -/
theorem registered_iff_abandoned (c : Cache) (moves : List (Source × Move)) (s : Lookups)
    (h : (start c).run moves = some s) :
    (∀ k, s.Quiet k →
      ((s.locks.get? k).isSome ↔ ∃ i, lastMove k (start c) moves = some (.turn i .abandon))) ∧
      ((∀ l ∈ s.arrived, l.stage ≠ .leaving) →
        (s.inFlight = s.liveKeys.card ↔
          ∀ k i, lastMove k (start c) moves = some (.turn i .abandon) → k ∈ s.liveKeys)) := by
  refine ⟨fun k hquiet => isSome_get?_iff_of_quiet h hquiet, fun hleft => ?_⟩
  have hsubset : s.liveKeys ⊆ s.locks.names.toFinset := liveKeys_subset (.run h)
  rw [inFlight_eq_card]
  constructor
  · intro hcard k i hlast
    by_contra hk
    have hsome := (isSome_get?_iff_of_quiet h (quiet_of_not_mem_liveKeys hleft hk)).2 ⟨i, hlast⟩
    rw [Finset.eq_of_subset_of_card_le hsubset hcard.le, List.mem_toFinset, mem_names_iff] at hk
    exact hk hsome
  · intro hstranded
    refine congrArg _ (Finset.Subset.antisymm (fun k hk => ?_) hsubset)
    by_contra hlive
    rw [List.mem_toFinset, mem_names_iff] at hk
    obtain ⟨i, hlast⟩ :=
      (isSome_get?_iff_of_quiet h (quiet_of_not_mem_liveKeys hleft hlive)).1 hk
    exact hlive (hstranded k i hlast)

/-- Two look-ups of one dataset. The second is abandoned while it waits, after the first has looked
whether anybody refers to the lock. -/
def withdrawal : List Move :=
  [.arrive "sst" "sst", .arrive "mask" "sst", .turn 0 .acquire, .turn 0 .read, .turn 0 .receive,
    .turn 0 .store, .turn 0 .release, .turn 0 .clear, .turn 1 .abandon]

/-- The look-ups are gone, no key is held or waited for, and the registry still has an entry. -/
theorem registered_iff_abandoned_withdrawal :
    ∃ s, (start (Cache.ofSlots "cache" fun _ => .vacant)).run
        (withdrawal.map fun m => (singleSource, m)) = some s ∧
      s.Quiet (key "sst.dmr.xml") ∧ (s.locks.get? (key "sst.dmr.xml")).isSome ∧
      s.liveKeys.card = 0 ∧ s.inFlight ≠ 0 := by
  have hrun : ((start (Cache.ofSlots "cache" fun _ => .vacant)).run
      (withdrawal.map fun m => (singleSource, m))).map
        (fun s => s.arrived.map fun l => l.stage matches .gone) = some [true, true] := by
    decide +kernel
  have hlast : lastMove (key "sst.dmr.xml") (start (Cache.ofSlots "cache" fun _ => .vacant))
      (withdrawal.map fun m => (singleSource, m)) = some (.turn 1 .abandon) := by
    decide +kernel
  obtain ⟨s, hs, harrived⟩ := Option.map_eq_some_iff.1 hrun
  have hgone (l : Lookup) (hl : l ∈ s.arrived) : l.stage = .gone := by
    have hmem : (l.stage matches .gone) ∈ s.arrived.map fun l => l.stage matches .gone :=
      List.mem_map_of_mem hl
    rw [harrived] at hmem
    cases hstage : l.stage <;> simp [hstage] at hmem ⊢
  have hlive (k : String) : k ∉ s.liveKeys := by
    rw [mem_liveKeys]
    rintro ⟨l, hl, hlive, -⟩
    simp [Lookup.isLive, hgone l hl, Stage.isWaiting, Stage.isHolding] at hlive
  have hcard : s.liveKeys.card = 0 := Finset.card_eq_zero.2 (Finset.eq_empty_of_forall_notMem hlive)
  have hquiet : s.Quiet (key "sst.dmr.xml") := fun l hl _ => hgone l hl
  obtain ⟨hentry, hcount⟩ := registered_iff_abandoned _ _ s hs
  refine ⟨s, hs, hquiet, (hentry _ hquiet).2 ⟨1, hlast⟩, hcard, fun hzero => ?_⟩
  exact hlive _ ((hcount fun l hl => by simp [hgone l hl]).1 (hzero.trans hcard.symm) _ 1 hlast)

end Lookups

end CoverageAccess
