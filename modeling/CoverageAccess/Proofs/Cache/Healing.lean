import CoverageAccess.Proofs.Cache.Visits
/-!
# The cache heals itself

Whatever files a cache begins with, a look-up leaves a metadata document or nothing under its key
(`Got.isSound`), and what is sound under a key stays sound (`Got.isSound_slots`). So a key has at
most one look-up that finds an unreadable file, and the next look-up of the key asks the source. The
tallies count what the look-ups find.
-/

namespace CoverageAccess

open Markup Metadata

/-- The character that the text of a fault of kind `notFound` begins with. -/
def Fault.initial? : Fault → Option Char
  | .notFound text => text.toList.head?
  | _ => none

namespace Cache

/-- Every place can be read: what is there is a file, or nothing. -/
def IsOpen (c : Cache) : Prop :=
  ∀ k cause, c.slots k ≠ .blocked cause

variable {source : Source} {c c' : Cache} {id dataset k : String} {f : Fault}
  {x : Except Fault Element}

@[simp] theorem initial?_unreadable (id : String) : (unreadable id).initial? = some 'C' := by
  simp [unreadable, Fault.initial?, toString]

/-- What cannot be fetched or is no metadata document is not reported as an unreadable file. -/
theorem initial?_of_obtain {a : String} (h : obtain source id a = .error f) :
    f.initial? ≠ some 'C' := by
  -- The other texts begin with `U` and with `M`.
  obtain ⟨u, -, rfl⟩ | ⟨body, -, cause, -, rfl⟩ := obtain_eq_error_iff.1 h
  · simp [Unfetched.fault, Fault.initial?, toString]
  · simp [unfitBody, Fault.initial?, toString]

namespace Got

/-- A look-up leaves a metadata document or nothing under its key. -/
theorem isSound (g : Got source c id dataset x c')
    (hopen : ∀ cause, c.slots (key (address dataset)) ≠ .blocked cause) :
    (c'.slots (key (address dataset))).IsSound := by
  cases g with
  | hit found fit => exact .inr ⟨_, _, found, fit⟩
  | evicted => exact .inl (by simp only [place_self])
  | stored _ obtained =>
      exact .inr ⟨_, _, by simp only [place_self], (obtain_eq_ok_iff.1 obtained).2⟩
  | failed found => exact .inl found
  | blocked found => exact absurd found (hopen _)

/-- What is sound stays sound. -/
theorem isSound_slots (g : Got source c id dataset x c') (h : (c.slots k).IsSound) :
    (c'.slots k).IsSound := by
  by_cases hk : k = key (address dataset)
  · subst hk
    exact g.isSound h.ne_blocked
  · rw [g.slots_of_ne hk]
    exact h

theorem isOpen (g : Got source c id dataset x c') (h : c.IsOpen) : c'.IsOpen := by
  intro k
  by_cases hk : k = key (address dataset)
  · subst hk
    exact (g.isSound (h _)).ne_blocked
  · rw [g.slots_of_ne hk]
    exact h k

/-- A look-up that fails makes no file and changes none. -/
theorem slots_of_error (g : Got source c id dataset (.error f) c') (k : String) :
    c'.slots k = c.slots k ∨ c'.slots k = .vacant := by
  cases g with
  | evicted =>
      by_cases hk : k = key (address dataset)
      · subst hk
        exact .inr (by simp only [place_self])
      · exact .inl (by simp only [place_of_ne _ _ hk])
  | failed | blocked => exact .inl rfl

/-- Exactly the look-ups that find an unreadable file say so. -/
theorem eq_unreadable_iff (g : Got source c id dataset x c') :
    x = .error (unreadable id) ↔ (c.slots (key (address dataset))).isUnreadable = true := by
  cases g with
  | hit found fit => simp [found, Slot.isUnreadable_file_of_ok fit]
  | evicted found unfit => simp [found, Slot.isUnreadable_file_of_error unfit]
  | stored found => simp [found]
  | @failed f found failed =>
      have hne : f ≠ unreadable id := by
        rintro rfl
        exact initial?_of_obtain failed (initial?_unreadable id)
      simp [found, hne]
  | blocked found => simp [found, blockedFault, unreadable]

theorem vacant_of_isUnreadable (g : Got source c id dataset x c')
    (h : (c.slots (key (address dataset))).isUnreadable = true) :
    c'.slots (key (address dataset)) = .vacant := by
  cases g with
  | hit found fit => simp [found, Slot.isUnreadable_file_of_ok fit] at h
  | evicted => simp only [place_self]
  | stored found | failed found | blocked found => simp [found] at h

/-- A look-up that finds no file asks the source. -/
theorem asked_of_vacant (g : Got source c id dataset x c')
    (h : c.slots (key (address dataset)) = .vacant) : c'.asked = c.asked ++ [address dataset] := by
  cases g with
  | hit found | evicted found | blocked found =>
      rw [h] at found
      cases found
  | stored | failed => rfl

theorem hits_add_misses (g : Got source c id dataset x c') (h : c.IsOpen) :
    c'.tally.hits + c'.tally.misses = c.tally.hits + c.tally.misses + 1 := by
  cases g with
  | hit | evicted => exact Nat.add_right_comm ..
  | stored | failed => rfl
  | blocked found => exact absurd found (h _ _)

theorem misses_eq (g : Got source c id dataset x c')
    (h : c.tally.misses = c.asked.length) : c'.tally.misses = c'.asked.length := by
  cases g with
  | hit | evicted | blocked => exact h
  | stored | failed => simp [h]

theorem evictions_eq (g : Got source c id dataset x c') :
    c'.tally.evictions =
      c.tally.evictions + if (c.slots (key (address dataset))).isUnreadable then 1 else 0 := by
  cases g with
  | hit found fit => simp [found, Slot.isUnreadable_file_of_ok fit]
  | evicted found unfit => simp [found, Slot.isUnreadable_file_of_error unfit]
  | stored found | failed found | blocked found => simp [found]

end Got

end Cache

/-- The look-up is answered with the fault of an unreadable file. -/
def Visit.ReportsUnreadable (v : Visit) : Prop :=
  v.answer = .error (Cache.unreadable v.id)

namespace Cache

variable {c : Cache} {asks : List Ask} {k : String} {v w : Visit}

theorem isOpen_of_mem_visits (hc : c.IsOpen) (hv : v ∈ c.visits asks) : v.before.IsOpen :=
  before_of_mem_visits (fun w hw => w.got.isOpen hw) hc hv

theorem isSound_of_mem_visits (hc : (c.slots k).IsSound) (hv : v ∈ c.visits asks) :
    (v.before.slots k).IsSound :=
  before_of_mem_visits (P := fun c => (c.slots k).IsSound) (fun w hw => w.got.isSound_slots hw)
    hc hv

/-- Of two look-ups of one key, at most one is answered with the fault of an unreadable file. -/
theorem pairwise_reportsUnreadable (hc : c.IsOpen) :
    (c.visits asks).Pairwise fun v w =>
      v.key = w.key → v.ReportsUnreadable → ¬w.ReportsUnreadable := by
  induction asks generalizing c with
  | nil => exact .nil
  | cons a r ih =>
      let v : Visit := ⟨a, c⟩
      -- The first look-up leaves its key sound, and sound it stays.
      refine .cons (fun w hw hkey _ hreports => ?_) (ih (v.got.isOpen hc))
      have hsound : w.found.IsSound := isSound_of_mem_visits (hkey ▸ v.got.isSound (hc _)) hw
      have hunreadable : w.found.isUnreadable = true := w.got.eq_unreadable_iff.1 hreports
      rw [hsound.isUnreadable_eq_false] at hunreadable
      cases hunreadable

/-- The look-ups after one of a run are a run from what that one leaves behind. -/
theorem exists_visits_of_append {pre post : List Visit} (h : c.visits asks = pre ++ v :: post) :
    ∃ asks', post = v.after.visits asks' := by
  induction asks generalizing c pre with
  | nil => simp [visits] at h
  | cons a r ih =>
      cases pre with
      | nil =>
          obtain ⟨rfl, rfl⟩ := List.cons.inj h
          exact ⟨r, rfl⟩
      | cons u pre => exact ih (List.cons.inj h).2

/-- The first look-up of a key finds what was under the key at the start. -/
theorem found_of_find?_visits (h : (c.visits asks).find? (fun w => w.key = k) = some w) :
    w.found = c.slots k := by
  induction asks generalizing c with
  | nil => cases h
  | cons a r ih =>
      let v : Visit := ⟨a, c⟩
      rw [visits, List.find?_cons] at h
      split at h
      next hkey =>
        cases h
        exact congrArg c.slots (of_decide_eq_true hkey)
      next hkey =>
        rw [ih h]
        exact v.after_slots_of_ne (Ne.symm (of_decide_eq_false hkey))

/-- After a look-up that found an unreadable file, the next one of its key asks the source. -/
theorem asked_of_find?_visits {pre post : List Visit} (h : c.visits asks = pre ++ v :: post)
    (hv : v.ReportsUnreadable) (hw : post.find? (fun w => w.key = v.key) = some w) :
    w.after.asked = w.before.asked ++ [w.address] := by
  obtain ⟨asks', rfl⟩ := exists_visits_of_append h
  have hvacant : v.after.slots v.key = .vacant :=
    v.got.vacant_of_isUnreadable (v.got.eq_unreadable_iff.1 hv)
  exact w.got.asked_of_vacant ((found_of_find?_visits hw).trans hvacant)

theorem hits_add_misses_afterAll (hc : c.IsOpen) :
    (c.afterAll asks).tally.hits + (c.afterAll asks).tally.misses =
      c.tally.hits + c.tally.misses + asks.length := by
  induction asks generalizing c with
  | nil => rfl
  | cons a r ih =>
      let v : Visit := ⟨a, c⟩
      have hv : v.after.tally.hits + v.after.tally.misses = c.tally.hits + c.tally.misses + 1 :=
        v.got.hits_add_misses hc
      rw [afterAll, ih (v.got.isOpen hc), hv, List.length_cons]
      omega

theorem misses_afterAll (hc : c.tally.misses = c.asked.length) :
    (c.afterAll asks).tally.misses = (c.afterAll asks).asked.length := by
  induction asks generalizing c with
  | nil => exact hc
  | cons a r ih => exact ih ((Visit.mk a c).got.misses_eq hc)

theorem evictions_afterAll :
    (c.afterAll asks).tally.evictions =
      c.tally.evictions + (c.visits asks).countP fun v => v.found.isUnreadable := by
  induction asks generalizing c with
  | nil => rfl
  | cons a r ih =>
      let v : Visit := ⟨a, c⟩
      have hv : v.after.tally.evictions =
          c.tally.evictions + if v.found.isUnreadable then 1 else 0 := v.got.evictions_eq
      rw [afterAll, ih, hv, visits, List.countP_cons, Nat.add_assoc, Nat.add_comm (ite ..)]

/-- From whatever files, whatever the source answers at each time, and as long as every place can be
read: each look-up leaves a metadata document or nothing under its key, leaves the files of other
keys alone, and neither makes nor changes a file when it fails; a key has at most one look-up that
is answered with the fault of an unreadable file, and the next look-up of the key asks the source;
and the tallies count the look-ups, the times that the source was asked, and the look-ups that found
an unreadable file. -/
theorem visits_heal (directory : String) (slots : String → Slot) (asks : List Ask)
    (hopen : ∀ k cause, slots k ≠ .blocked cause) :
    (∀ v ∈ (ofSlots directory slots).visits asks,
        (v.after.slots v.key = .vacant ∨
          ∃ body root, v.after.slots v.key = .file body ∧ decode body = .ok root) ∧
        (∀ k, k ≠ v.key → v.after.slots k = v.before.slots k) ∧
        ((∃ f, v.answer = .error f) →
          ∀ k, v.after.slots k = v.before.slots k ∨ v.after.slots k = .vacant)) ∧
      (((ofSlots directory slots).visits asks).Pairwise fun v w =>
        v.key = w.key → v.ReportsUnreadable → ¬w.ReportsUnreadable) ∧
      (∀ (pre post : List Visit) (v w : Visit),
        (ofSlots directory slots).visits asks = pre ++ v :: post → v.ReportsUnreadable →
          post.find? (fun w => w.key = v.key) = some w →
            w.after.asked = w.before.asked ++ [w.address]) ∧
      let c := (ofSlots directory slots).afterAll asks
      c.tally.hits + c.tally.misses = asks.length ∧ c.tally.misses = c.asked.length ∧
        c.tally.evictions =
          ((ofSlots directory slots).visits asks).countP fun v => v.found.isUnreadable := by
  have hstart : (ofSlots directory slots).IsOpen := hopen
  refine ⟨fun v hv => ⟨?_, fun k hk => v.after_slots_of_ne hk, ?_⟩,
    pairwise_reportsUnreadable hstart, fun _ _ _ _ h hv hw => asked_of_find?_visits h hv hw,
    ?_, misses_afterAll rfl, ?_⟩
  · exact v.got.isSound (isOpen_of_mem_visits hstart hv _)
  · rintro ⟨f, hf⟩
    have hgot := v.got
    rw [hf] at hgot
    exact hgot.slots_of_error
  · rw [hits_add_misses_afterAll hstart]
    exact Nat.zero_add _
  · rw [evictions_afterAll]
    exact Nat.zero_add _

/-- A directory in which every file is empty. -/
def emptyFiles : String → Slot :=
  fun _ => .file []

/-- Two look-ups of one dataset without a network. -/
def repeated : List Ask :=
  [⟨offline, "sst", "sst"⟩, ⟨offline, "mask", "sst"⟩]

theorem visits_heal_repeated :
    (∀ k cause, emptyFiles k ≠ .blocked cause) ∧
      ((ofSlots "cache" emptyFiles).afterAll repeated).tally.evictions =
        ((ofSlots "cache" emptyFiles).visits repeated).countP (fun v => v.found.isUnreadable) ∧
      ((ofSlots "cache" emptyFiles).afterAll repeated).tally = ⟨1, 1, 1⟩ := by
  have hopen : ∀ k cause, emptyFiles k ≠ .blocked cause := fun _ _ => Slot.noConfusion
  have h := visits_heal "cache" emptyFiles repeated hopen
  exact ⟨hopen, h.2.2.2.2.2, by decide +kernel⟩

end Cache

end CoverageAccess
