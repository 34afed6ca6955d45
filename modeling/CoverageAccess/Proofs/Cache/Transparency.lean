import CoverageAccess.Proofs.Cache.Visits
import Mathlib.Data.Set.Function
/-!
# The cache is transparent

As long as the source does not change and no two addresses in use have one key, a cache that begins
empty mirrors the source (`Mirrors`): under the key of every address that was asked for it holds
exactly what `kept` says, and how often the source was asked for an address follows from the
addresses of the look-ups. So every look-up is answered as if there were no cache.
-/

namespace CoverageAccess

open Markup

namespace Metadata

/-- The metadata document of a dataset, for a coverage, as the source has it. -/
def document (source : Source) (id dataset : String) : Except Fault Element := do
  let body ← (source (address dataset)).mapError Unfetched.fault
  let root ← (decode body).mapError (unfitBody id (address dataset))
  return named id root

/-- What a cache keeps of an address, once it has asked for it. -/
def kept (source : Source) (a : String) : Slot :=
  match source a with
  | .ok body =>
    match decode body with
    | .ok _ => .file body
    | .error _ => .vacant
  | .error _ => .vacant

variable {source : Source} {id dataset a : String} {body : List UInt8} {root : Element} {f : Fault}

theorem document_eq_map : document source id dataset =
    (obtain source id (address dataset)).map fun r => named id r.2 := by
  unfold document obtain
  cases source (address dataset) with
  | error u => rfl
  | ok body =>
      rw [mapError_ok, ok_bind, ok_bind]
      cases decode body <;> rfl

theorem document_of_obtain_ok (h : obtain source id (address dataset) = .ok (body, root)) :
    document source id dataset = .ok (named id root) := by
  rw [document_eq_map, h]
  rfl

theorem document_of_obtain_error (h : obtain source id (address dataset) = .error f) :
    document source id dataset = .error f := by
  rw [document_eq_map, h]
  rfl

/-- A body is kept exactly if it is what the source serves; else nothing is. -/
theorem kept_cases (source : Source) (a : String) :
    (∃ body root, kept source a = .file body ∧ source a = .ok body ∧ decode body = .ok root) ∨
      kept source a = .vacant ∧ ¬Serves source a := by
  unfold kept
  split
  next body hbody =>
    split
    next root hroot => exact .inl ⟨body, root, rfl, hbody, hroot⟩
    next cause hcause =>
      refine .inr ⟨rfl, ?_⟩
      rintro ⟨body', root, hbody', hroot⟩
      obtain rfl := Except.ok.inj (hbody.symm.trans hbody')
      rw [hcause] at hroot
      cases hroot
  next u hu =>
    refine .inr ⟨rfl, ?_⟩
    rintro ⟨body, root, hbody, -⟩
    rw [hu] at hbody
    cases hbody

theorem kept_eq_vacant_iff : kept source a = .vacant ↔ ¬Serves source a := by
  obtain ⟨body, root, hkept, hserves⟩ | ⟨hkept, hserves⟩ := kept_cases source a
  · simp only [hkept, reduceCtorEq, false_iff, not_not]
    exact ⟨body, root, hserves⟩
  · exact iff_of_true hkept hserves

theorem kept_of_obtain (h : obtain source id a = .ok (body, root)) :
    kept source a = .file body := by
  obtain ⟨hbody, hroot⟩ := obtain_eq_ok_iff.1 h
  simp only [kept, hbody, hroot]

theorem kept_ne_blocked (source : Source) (a : String) (cause : Files.Failure) :
    kept source a ≠ .blocked cause := by
  obtain ⟨body, root, hkept, -⟩ | ⟨hkept, -⟩ := kept_cases source a <;>
    exact hkept ▸ Slot.noConfusion

/-- What is kept is a body of the source, and a metadata document. -/
theorem exists_of_kept_eq_file (h : kept source a = .file body) :
    source a = .ok body ∧ ∃ root, decode body = .ok root := by
  obtain ⟨body', root, hkept, hbody, hroot⟩ | ⟨hkept, -⟩ := kept_cases source a
  · obtain rfl : body' = body := Slot.file.inj (hkept.symm.trans h)
    exact ⟨hbody, root, hroot⟩
  · rw [hkept] at h
    cases h

end Metadata

open Metadata

namespace Cache

/-- After look-ups of the addresses `past`, the cache holds of every address in use what is to be
kept of it, and has asked the source once for what it holds and each time for what it does not. -/
structure Mirrors (source : Source) (used past : List String) (c : Cache) : Prop where
  slots : ∀ a ∈ used, c.slots (key a) = if a ∈ past then kept source a else .vacant
  asked : ∀ a ∈ used, c.asked.count a =
    if kept source a = .vacant then past.count a else if a ∈ past then 1 else 0
  evictions : c.tally.evictions = 0

namespace Mirrors

variable {source : Source} {used past : List String} {c c' : Cache} {id dataset a : String}
  {body : List UInt8} {x : Except Fault Element}

theorem empty (source : Source) (used : List String) (directory : String) :
    Mirrors source used [] (Cache.empty directory) where
  slots _ _ := rfl
  asked a _ := by simp [Cache.empty, ofSlots]
  evictions := rfl

/-- A file is there because its address was asked for. -/
theorem of_file (h : Mirrors source used past c) (ha : a ∈ used)
    (hfile : c.slots (key a) = .file body) : a ∈ past ∧ kept source a = .file body := by
  rw [h.slots a ha] at hfile
  split at hfile
  next hpast => exact ⟨hpast, hfile⟩
  next => cases hfile

/-- Where no file is, the address was not asked for or the source does not serve it. -/
theorem of_vacant (h : Mirrors source used past c) (ha : a ∈ used)
    (hvacant : c.slots (key a) = .vacant) : a ∈ past → kept source a = .vacant := by
  intro hpast
  rwa [h.slots a ha, if_pos hpast] at hvacant

theorem ne_blocked (h : Mirrors source used past c) (ha : a ∈ used) (cause : Files.Failure) :
    c.slots (key a) ≠ .blocked cause := by
  rw [h.slots a ha]
  split
  · exact kept_ne_blocked source a cause
  · exact Slot.noConfusion

/-- A look-up is answered as without a cache. -/
theorem answer_eq (h : Mirrors source used past c) (hused : address dataset ∈ used)
    (g : Got source c id dataset x c') : x = document source id dataset := by
  cases g with
  | @hit body root found fit =>
      have hbody := (exists_of_kept_eq_file (h.of_file hused found).2).1
      exact (document_of_obtain_ok (obtain_eq_ok_iff.2 ⟨hbody, fit⟩)).symm
  | evicted found unfit =>
      obtain ⟨-, root, hroot⟩ := exists_of_kept_eq_file (h.of_file hused found).2
      rw [unfit] at hroot
      cases hroot
  | stored _ obtained => exact (document_of_obtain_ok obtained).symm
  | failed _ failed => exact (document_of_obtain_error failed).symm
  | blocked found => exact absurd found (h.ne_blocked hused _)

/-- A look-up that is answered from a file changes nothing that mirrors. -/
theorem of_hit {b : String} (h : Mirrors source used past c) (hpast : b ∈ past)
    (hkept : kept source b ≠ .vacant) (hslots : c'.slots = c.slots) (hasked : c'.asked = c.asked)
    (hevictions : c'.tally.evictions = 0) : Mirrors source used (past ++ [b]) c' := by
  have hmem (a : String) : a ∈ past ++ [b] ↔ a ∈ past := by
    rw [List.mem_append, List.mem_singleton]
    exact ⟨fun ha => ha.elim id fun he => he ▸ hpast, .inl⟩
  refine ⟨fun a ha => ?_, fun a ha => ?_, hevictions⟩
  · simp only [hslots, hmem, h.slots a ha]
  · rw [hasked, h.asked a ha]
    by_cases hvacant : kept source a = .vacant
    · have hne : b ≠ a := fun he => hkept (he ▸ hvacant)
      rw [if_pos hvacant, if_pos hvacant, List.count_append, List.count_singleton,
        if_neg (by simpa using hne), Nat.add_zero]
    · simp only [if_neg hvacant, hmem]

/-- A look-up that asks the source keeps what is to be kept. -/
theorem of_fetch {b : String} (h : Mirrors source used past c)
    (hnew : b ∈ past → kept source b = .vacant)
    (hslots : ∀ a ∈ used, c'.slots (key a) = if a = b then kept source b else c.slots (key a))
    (hasked : c'.asked = c.asked ++ [b]) (hevictions : c'.tally.evictions = 0) :
    Mirrors source used (past ++ [b]) c' := by
  refine ⟨fun a ha => ?_, fun a ha => ?_, hevictions⟩
  · rw [hslots a ha]
    by_cases he : a = b
    · subst he
      rw [if_pos rfl, if_pos (by simp)]
    · simp only [h.slots a ha, List.mem_append, List.mem_singleton, he, or_false, if_false]
  · rw [hasked, List.count_append, h.asked a ha, List.count_append]
    by_cases he : a = b
    · subst he
      by_cases hvacant : kept source a = .vacant
      · rw [if_pos hvacant, if_pos hvacant]
      · have hpast : a ∉ past := fun hpast => hvacant (hnew hpast)
        simp [hvacant, hpast]
    · simp only [List.count_singleton, beq_iff_eq, Ne.symm he, if_false, Nat.add_zero,
        List.mem_append, List.mem_singleton, he, or_false]

theorem step (h : Mirrors source used past c) (hkeys : Set.InjOn key {a | a ∈ used})
    (hused : address dataset ∈ used) (g : Got source c id dataset x c') :
    Mirrors source used (past ++ [address dataset]) c' := by
  cases g with
  | hit found =>
      obtain ⟨hpast, hkept⟩ := h.of_file hused found
      exact h.of_hit hpast (hkept ▸ Slot.noConfusion) rfl rfl h.evictions
  | evicted found unfit =>
      obtain ⟨-, root, hroot⟩ := exists_of_kept_eq_file (h.of_file hused found).2
      rw [unfit] at hroot
      cases hroot
  | stored found obtained =>
      refine h.of_fetch (h.of_vacant hused found) (fun a ha => ?_) rfl h.evictions
      split
      next he =>
        rw [he, kept_of_obtain obtained]
        simp only [place_self]
      next he =>
        have hne : key a ≠ key (address dataset) := fun hkey => he (hkeys ha hused hkey)
        simp only [place_of_ne _ _ hne]
  | failed found failed =>
      refine h.of_fetch (h.of_vacant hused found) (fun a ha => ?_) rfl h.evictions
      split
      next he => rw [he, kept_eq_vacant_iff.2 (not_serves_of_obtain failed), found]
      next => rfl
  | blocked found => exact absurd found (h.ne_blocked hused _)

/-- A run of look-ups is answered as without a cache and mirrors the source at its end. -/
theorem run {asks : List (String × String)} (h : Mirrors source used past c)
    (hkeys : Set.InjOn key {a | a ∈ used}) (hused : ∀ a ∈ asks, address a.2 ∈ used) :
    (c.visits (asks.map fun a => ⟨source, a.1, a.2⟩)).map Visit.answer =
        asks.map (fun a => document source a.1 a.2) ∧
      Mirrors source used (past ++ asks.map fun a => address a.2)
        (c.afterAll (asks.map fun a => ⟨source, a.1, a.2⟩)) := by
  induction asks generalizing c past with
  | nil => exact ⟨rfl, by rwa [List.map_nil, List.append_nil]⟩
  | cons a r ih =>
      have ha : address a.2 ∈ used := hused a List.mem_cons_self
      let v : Visit := ⟨⟨source, a.1, a.2⟩, c⟩
      obtain ⟨hanswers, hend⟩ :=
        ih (h.step hkeys ha v.got) fun b hb => hused b (List.mem_cons_of_mem _ hb)
      refine ⟨?_, ?_⟩
      · exact congrArg₂ List.cons (h.answer_eq ha v.got) hanswers
      · rwa [List.append_assoc] at hend

end Mirrors

end Cache

end CoverageAccess
