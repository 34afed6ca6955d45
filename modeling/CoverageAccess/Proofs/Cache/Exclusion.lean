import CoverageAccess.Proofs.Cache.Lookups
/-!
# Look-ups of one key exclude each other

However the turns of look-ups fall, those of one key that have a lock have the one in the registry,
and no two of them hold it (`Guarded`). The subtle case is a look-up that arrives between the moment
another one lets go of the lock and the moment that one clears it away: the registry's entry stays,
since the newcomer refers to it. From exclusion follows that the source is asked once for a key
without a file, in three phases (`Phase`): nobody has asked, one look-up is asking and all others
wait, or the answer is kept.
-/

namespace CoverageAccess

open Markup Metadata

namespace Lookups

/-- Look-ups that have a lock have the one of their key in the registry, and no lock is held
twice. -/
structure Guarded (s : Lookups) : Prop where
  shared : ∀ l ∈ s.arrived, l.isLive = true → s.locks.get? l.key = some l.lock
  single : ∀ (i j : Nat) (a b : Lookup), s.arrived[i]? = some a → s.arrived[j]? = some b →
    a.stage.isHolding = true → b.stage.isHolding = true → a.lock = b.lock → i = j

variable {source : Source} {s s' : Lookups} {l l' : Lookup} {i : Nat} {u : Turn} {m : Move}
  {id dataset k : String}

/-- The look-up that arrives waits for the lock of its key in the registry. -/
theorem arrive_cases (s : Lookups) (id dataset : String) :
    ∃ lock, (s.arrive id dataset).arrived = s.arrived ++ [⟨id, dataset, lock, .waiting, none⟩] ∧
      (s.arrive id dataset).locks.get? (key (address dataset)) = some lock ∧
      (∀ k n, s.locks.get? k = some n → (s.arrive id dataset).locks.get? k = some n) ∧
      (s.arrive id dataset).cache = s.cache := by
  unfold arrive
  dsimp only
  split
  next lock hlock => exact ⟨lock, rfl, hlock, fun _ _ h => h, rfl⟩
  next hnone =>
    refine ⟨s.issued, rfl, Table.get?_insert_self .., fun k n hk => ?_, rfl⟩
    have hne : k ≠ key (address dataset) := by
      rintro rfl
      rw [hnone] at hk
      cases hk
    rwa [Table.get?_insert_of_ne _ _ hne]

/-- A lock that a look-up refers to is not cleared away. -/
theorem get?_clearedLocks (hl : l ∈ s.arrived) (hlive : l.isLive = true)
    (hlock : s.locks.get? l.key = some l.lock) (k : String) :
    (s.clearedLocks k).get? l.key = some l.lock := by
  unfold clearedLocks
  split
  next lock hk =>
    split
    · exact hlock
    -- The entry goes only if nobody refers to it, but `l` does if it is the one of its key.
    next hunused =>
      rw [Table.get?_erase, if_neg, hlock]
      rintro rfl
      obtain rfl : l.lock = lock := Option.some.inj (hlock.symm.trans hk)
      exact hunused (List.any_eq_true.2 ⟨l, hl, by simp [Lookup.refersTo, hlive]⟩)
  · exact hlock

/-- What a look-up is replaced by stands in its place, and nowhere else. -/
theorem getElem?_set_cases {a : Lookup} {j : Nat} (h : (s.arrived.set i l')[j]? = some a) :
    j = i ∧ a = l' ∨ j ≠ i ∧ s.arrived[j]? = some a := by
  rw [List.getElem?_set] at h
  split at h
  next heq =>
    split at h
    · exact .inl ⟨heq.symm, (Option.some.inj h).symm⟩
    · cases h
  next hne => exact .inr ⟨Ne.symm hne, h⟩

namespace Guarded

theorem start (c : Cache) : Guarded (start c) where
  shared _ hl := absurd hl List.not_mem_nil
  single _ _ _ _ ha := nomatch ha

/-- Look-ups of one key share their lock. -/
theorem lock_eq_of_key_eq (h : s.Guarded) {a b : Lookup} (ha : a ∈ s.arrived) (hb : b ∈ s.arrived)
    (hkey : a.key = b.key) (hlivea : a.isLive = true) (hliveb : b.isLive = true) :
    a.lock = b.lock := by
  have hlock := h.shared a ha hlivea
  rw [hkey, h.shared b hb hliveb] at hlock
  exact (Option.some.inj hlock).symm

/-- Look-ups of one key do not hold their lock at the same time. -/
theorem eq_of_key_eq (h : s.Guarded) {i j : Nat} {a b : Lookup} (ha : s.arrived[i]? = some a)
    (hb : s.arrived[j]? = some b) (hkey : a.key = b.key) (hholdsa : a.stage.isHolding = true)
    (hholdsb : b.stage.isHolding = true) : i = j :=
  h.single i j a b ha hb hholdsa hholdsb <|
    h.lock_eq_of_key_eq (List.mem_of_getElem? ha) (List.mem_of_getElem? hb) hkey
      (Lookup.isLive_of_isHolding hholdsa) (Lookup.isLive_of_isHolding hholdsb)

theorem arrive (h : s.Guarded) (id dataset : String) : (s.arrive id dataset).Guarded := by
  obtain ⟨lock, harrived, hlock, hlocks, -⟩ := arrive_cases s id dataset
  have hold {i : Nat} {a : Lookup} (ha : (s.arrive id dataset).arrived[i]? = some a)
      (hholds : a.stage.isHolding = true) : s.arrived[i]? = some a := by
    rw [harrived, List.getElem?_append] at ha
    split at ha
    · exact ha
    · obtain rfl := List.mem_singleton.1 (List.mem_of_getElem? ha)
      cases hholds
  refine ⟨fun l hl hlive => ?_, fun i j a b ha hb hholdsa hholdsb => ?_⟩
  · rw [harrived, List.mem_append, List.mem_singleton] at hl
    obtain hl | rfl := hl
    · exact hlocks _ _ (h.shared l hl hlive)
    · exact hlock
  · exact h.single i j a b (hold ha hholdsa) (hold hb hholdsb) hholdsa hholdsb

/-- While a look-up takes its turn, no other one has its lock and holds it, if it holds it itself
afterwards. -/
theorem eq_of_turned (h : s.Guarded) (hl : s.arrived[i]? = some l) {c : Cache} {locks : Table Nat}
    (g : Turned source s l u l' c locks) (hholds : l'.stage.isHolding = true) {j : Nat}
    {o : Lookup} (ho : s.arrived[j]? = some o) (hother : o.stage.isHolding = true)
    (hlock : o.lock = l.lock) : j = i := by
  obtain hself | hfree := g.isHolding hholds
  · exact h.single j i o l ho hl hother hself hlock
  · have hnone := hfree o (List.mem_of_getElem? ho)
    simp [Lookup.holds, hlock, hother] at hnone

theorem turn (h : s.Guarded) (hturn : s.step source (.turn i u) = some s') : s'.Guarded := by
  obtain ⟨l, l', hl, harrived, g⟩ := turned_of_step hturn
  have hmem : l ∈ s.arrived := List.mem_of_getElem? hl
  have hshared : ∀ o ∈ s.arrived, o.isLive = true → s'.locks.get? o.key = some o.lock := by
    intro o ho hlive
    obtain hlocks | hlocks := g.locks_eq
    · rw [hlocks]
      exact h.shared o ho hlive
    · rw [hlocks]
      exact get?_clearedLocks ho hlive (h.shared o ho hlive) _
  refine ⟨fun o ho hlive => ?_, fun a b x y ha hb hholdsa hholdsb hlock => ?_⟩
  · rw [harrived] at ho
    obtain ho | rfl := List.mem_or_eq_of_mem_set ho
    · exact hshared o ho hlive
    · rw [g.key_eq, g.lock_eq]
      exact hshared l hmem (g.isLive hlive)
  · rw [harrived] at ha hb
    obtain ⟨rfl, rfl⟩ | ⟨-, hx⟩ := getElem?_set_cases ha <;>
      obtain ⟨rfl, rfl⟩ | ⟨-, hy⟩ := getElem?_set_cases hb
    · rfl
    · exact (h.eq_of_turned hl g hholdsa hy hholdsb (hlock.symm.trans g.lock_eq)).symm
    · exact h.eq_of_turned hl g hholdsb hx hholdsa (hlock.trans g.lock_eq)
    · exact h.single a b x y hx hy hholdsa hholdsb hlock

theorem step (h : s.Guarded) (hstep : s.step source m = some s') : s'.Guarded := by
  cases m with
  | arrive id dataset => exact Option.some.inj hstep ▸ h.arrive id dataset
  | turn i u => exact h.turn hstep

theorem run {c : Cache} {moves : List (Source × Move)}
    (h : (Lookups.start c).run moves = some s) : s.Guarded :=
  run_induction h (start c) fun _ _ _ _ hr hstep _ => hr.step hstep

end Guarded

end Lookups

end CoverageAccess
