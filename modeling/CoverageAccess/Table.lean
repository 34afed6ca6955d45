/-!
# Tables

A `Table α` files values under names and lists them in ascending order of the names, each name at
most once. The order is that of the characters' code points, which is also the order of the UTF-8
bytes. Because the order is part of the type, two tables that answer every look-up alike are equal
(`Table.ext_get?`), and it does not matter in which order different names were entered.
-/

namespace CoverageAccess

/-- Values filed under names, in ascending order of the names. -/
structure Table (α : Type) where
  /-- The names with their values, in order. -/
  entries : List (String × α)
  /-- The names strictly ascend. -/
  ascending : entries.Pairwise fun a b => a.1 < b.1

namespace Table

variable {α : Type}

/-- The list with `v` under `k`: in place of the value that `k` had, or where `k` belongs. -/
def insertEntry (k : String) (v : α) : List (String × α) → List (String × α)
  | [] => [(k, v)]
  | e :: r =>
    if k = e.1 then (k, v) :: r
    else if k < e.1 then (k, v) :: e :: r
    else e :: insertEntry k v r

theorem mem_insertEntry {k : String} {v : α} {l : List (String × α)} {e : String × α}
    (he : e ∈ insertEntry k v l) : e.1 = k ∨ e ∈ l := by
  induction l with
  | nil => simp_all [insertEntry]
  | cons a r ih =>
    unfold insertEntry at he
    split at he
    · rcases List.mem_cons.1 he with rfl | h
      · exact .inl rfl
      · exact .inr (List.mem_cons_of_mem _ h)
    · split at he
      · rcases List.mem_cons.1 he with rfl | h
        · exact .inl rfl
        · exact .inr h
      · rcases List.mem_cons.1 he with rfl | h
        · exact .inr List.mem_cons_self
        · exact (ih h).imp_right (List.mem_cons_of_mem _)

theorem pairwise_insertEntry {k : String} {v : α} {l : List (String × α)}
    (hl : l.Pairwise fun a b => a.1 < b.1) :
    (insertEntry k v l).Pairwise fun a b => a.1 < b.1 := by
  induction l with
  | nil => simp [insertEntry]
  | cons a r ih =>
    have ⟨ha, hr⟩ := List.pairwise_cons.1 hl
    unfold insertEntry
    split
    next h => exact List.pairwise_cons.2 ⟨fun e he => h ▸ ha e he, hr⟩
    next h =>
      split
      next hlt =>
        refine List.pairwise_cons.2 ⟨fun e he => ?_, hl⟩
        rcases List.mem_cons.1 he with rfl | he
        · exact hlt
        · exact String.lt_trans hlt (ha e he)
      next hlt =>
        refine List.pairwise_cons.2 ⟨fun e he => ?_, ih hr⟩
        rcases mem_insertEntry he with rfl | he
        · exact Decidable.byContradiction fun hn =>
            h (String.le_antisymm (String.not_lt.1 hn) (String.not_lt.1 hlt))
        · exact ha e he

def empty : Table α := ⟨[], .nil⟩

instance : EmptyCollection (Table α) := ⟨empty⟩

instance : Inhabited (Table α) := ⟨empty⟩

instance [DecidableEq α] : DecidableEq (Table α) := fun s t =>
  if h : s.entries = t.entries then isTrue (by cases s; cases t; simp_all)
  else isFalse fun e => h (e ▸ rfl)

/-- The table with `v` filed under `k`. -/
def insert (t : Table α) (k : String) (v : α) : Table α :=
  ⟨insertEntry k v t.entries, pairwise_insertEntry t.ascending⟩

/-- The value under `k`. -/
def get? (t : Table α) (k : String) : Option α :=
  (t.entries.find? fun e => e.1 == k).map Prod.snd

/-- A value is filed under `k`. -/
def contains (t : Table α) (k : String) : Bool :=
  (t.get? k).isSome

def names (t : Table α) : List String :=
  t.entries.map Prod.fst

def values (t : Table α) : List α :=
  t.entries.map Prod.snd

def size (t : Table α) : Nat :=
  t.entries.length

/-- The table without `k`. -/
def erase (t : Table α) (k : String) : Table α :=
  ⟨t.entries.filter fun e => e.1 != k, t.ascending.filter _⟩

/-- The table of a list of pairs; of two pairs with one name the later counts. -/
def ofList (l : List (String × α)) : Table α :=
  l.foldl (fun t e => t.insert e.1 e.2) ∅

@[simp] theorem entries_empty : (∅ : Table α).entries = [] := rfl

@[simp] theorem get?_empty (k : String) : (∅ : Table α).get? k = none := rfl

theorem ext_entries {s t : Table α} (h : s.entries = t.entries) : s = t := by
  cases s
  cases t
  simp_all

theorem find?_insertEntry (k j : String) (v : α) (l : List (String × α)) :
    (insertEntry k v l).find? (fun e => e.1 == j) =
      if j = k then some (k, v) else l.find? fun e => e.1 == j := by
  induction l with
  | nil =>
    by_cases h : j = k
    · simp [insertEntry, h]
    · simp [insertEntry, h, Ne.symm h]
  | cons a r ih =>
    unfold insertEntry
    by_cases h : j = k
    · subst h
      by_cases ha : j = a.1
      · simp [ha]
      · by_cases hlt : j < a.1 <;> simp [ha, hlt, Ne.symm ha, ih]
    · by_cases ha : k = a.1
      · simp [← ha, h, Ne.symm h]
      · by_cases hlt : k < a.1 <;> simp [ha, hlt, h, Ne.symm h, ih, List.find?_cons]

theorem get?_insert (t : Table α) (k j : String) (v : α) :
    (t.insert k v).get? j = if j = k then some v else t.get? j := by
  simp only [get?, insert, find?_insertEntry]
  split <;> rfl

@[simp] theorem get?_insert_self (t : Table α) (k : String) (v : α) :
    (t.insert k v).get? k = some v := by
  simp [get?_insert]

theorem get?_insert_of_ne (t : Table α) {k j : String} (v : α) (h : j ≠ k) :
    (t.insert k v).get? j = t.get? j := by
  simp [get?_insert, h]

/-- Of a list of pairs, the last one with a name counts. -/
theorem get?_ofList (l : List (String × α)) (k : String) :
    (ofList l).get? k = (l.reverse.find? fun e => e.1 == k).map Prod.snd := by
  suffices h : ∀ t : Table α, (l.foldl (fun t e => t.insert e.1 e.2) t).get? k =
      ((l.reverse.find? fun e => e.1 == k).map Prod.snd).or (t.get? k) by
    simpa [ofList] using h ∅
  induction l with
  | nil => simp
  | cons a l ih =>
    intro t
    rw [List.foldl_cons, ih, get?_insert, List.reverse_cons, List.find?_append]
    by_cases h : a.1 = k
    · cases l.reverse.find? fun e => e.1 == k <;> simp [h]
    · cases l.reverse.find? fun e => e.1 == k <;> simp [h, Ne.symm h]

theorem mem_of_get?_ofList {l : List (String × α)} {k : String} {v : α}
    (h : (ofList l).get? k = some v) : (k, v) ∈ l := by
  rw [get?_ofList] at h
  obtain ⟨e, he, rfl⟩ := Option.map_eq_some_iff.1 h
  have hkey : e.1 = k := by simpa using List.find?_some he
  rw [← hkey]
  exact List.mem_reverse.1 (List.mem_of_find?_eq_some he)

/-- A look-up answers `v` exactly if the pair is an entry. -/
theorem get?_eq_some_iff {t : Table α} {k : String} {v : α} :
    t.get? k = some v ↔ (k, v) ∈ t.entries := by
  obtain ⟨l, hl⟩ := t
  simp only [get?]
  induction l with
  | nil => simp
  | cons a r ih =>
    have ⟨ha, hr⟩ := List.pairwise_cons.1 hl
    by_cases h : a.1 = k
    · subst h
      have hn : (a.1, v) ∉ r := fun hm => String.lt_irrefl a.1 (ha (a.1, v) hm)
      obtain ⟨k', w⟩ := a
      simp [hn, eq_comm]
    · have hne : (k, v) ≠ a := fun e => h (e ▸ rfl)
      simp [h, hne, ih hr]

theorem get?_erase (t : Table α) (k j : String) :
    (t.erase k).get? j = if j = k then none else t.get? j := by
  refine Option.ext fun v => ?_
  rw [get?_eq_some_iff]
  split
  next h => simp [erase, h]
  next h => simp [erase, h, get?_eq_some_iff]

/-- Tables that answer every look-up alike are equal. -/
theorem ext_get? {s t : Table α} (h : ∀ k, s.get? k = t.get? k) : s = t := by
  have asymm (a b : String × α) (_ : a ∈ s.entries) (_ : b ∈ t.entries)
      (hab : a.1 < b.1) (hba : b.1 < a.1) : a = b :=
    absurd (String.lt_trans hab hba) (String.lt_irrefl _)
  refine ext_entries (List.Perm.eq_of_pairwise asymm s.ascending t.ascending ?_)
  have nodup (u : Table α) : u.entries.Nodup :=
    u.ascending.imp fun {a b} (hlt : a.1 < b.1) (e : a = b) =>
      String.lt_irrefl b.1 (e ▸ hlt)
  refine (List.perm_ext_iff_of_nodup (nodup s) (nodup t)).2 fun e => ?_
  rw [← get?_eq_some_iff, ← get?_eq_some_iff, h]

theorem insert_insert_of_ne (t : Table α) {j k : String} (v w : α) (h : j ≠ k) :
    (t.insert j v).insert k w = (t.insert k w).insert j v := by
  refine ext_get? fun i => ?_
  simp only [get?_insert]
  split <;> split <;> simp_all

end Table

end CoverageAccess
