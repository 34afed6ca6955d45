import CoverageAccess.Proofs.Outcome
import CoverageAccess.Request.Basic
/-!
# Entering subsets

Subsets are entered one after the other, each under its dimension, and a dimension is entered once.
What has been entered stays; so a list of subsets that is entered is found in the table afterwards,
in whatever order they were entered, and the values of a table are entered into the same table
again.
-/

namespace CoverageAccess

theorem Table.insertEntry_of_forall_lt {α : Type} {k : String} {v : α} {l : List (String × α)}
    (h : ∀ e ∈ l, e.1 < k) : insertEntry k v l = l ++ [(k, v)] := by
  induction l with
  | nil => rfl
  | cons e l ih =>
      have he : e.1 < k := h e List.mem_cons_self
      have hne : k ≠ e.1 := by
        intro hk
        rw [← hk] at he
        exact String.lt_irrefl k he
      have hnot : ¬k < e.1 := fun hk => String.lt_irrefl k (String.lt_trans hk he)
      rw [insertEntry, if_neg hne, if_neg hnot, ih fun d hd => h d (List.mem_cons_of_mem _ hd)]
      rfl

namespace Request

variable {α β : Type} {read : α → Except Subset.Refusal Subset} {subsets t : Table Subset}
  {l : List α}

theorem enterAll_map (f : β → α) (l : List β) (subsets : Table Subset) :
    enterAll read subsets (l.map f) = enterAll (fun b => read (f b)) subsets l := by
  induction l generalizing subsets with
  | nil => rfl
  | cons b l ih =>
      rw [List.map_cons, enterAll, enterAll]
      simp only [ih]

theorem enterAll_congr {read' : α → Except Subset.Refusal Subset}
    (h : ∀ a ∈ l, read a = read' a) : enterAll read subsets l = enterAll read' subsets l := by
  induction l generalizing subsets with
  | nil => rfl
  | cons a l ih =>
      have hrest (subsets : Table Subset) :
          enterAll read subsets l = enterAll read' subsets l :=
        ih fun b hb => h b (List.mem_cons_of_mem _ hb)
      rw [enterAll, enterAll, h a List.mem_cons_self]
      simp only [hrest]

theorem enter_eq_ok_iff {s : Subset} :
    enter subsets s = .ok t ↔
      subsets.get? s.dimension = none ∧ t = subsets.insert s.dimension s := by
  unfold enter Table.contains
  cases subsets.get? s.dimension <;> simp [eq_comm]

/-- A list is entered exactly if its first member is read, has a new dimension, and the rest is
entered behind it. -/
theorem enterAll_cons_eq_ok_iff {a : α} :
    enterAll read subsets (a :: l) = .ok t ↔
      ∃ s, read a = .ok s ∧ subsets.get? s.dimension = none ∧
        enterAll read (subsets.insert s.dimension s) l = .ok t := by
  simp only [enterAll, bind_eq_ok_iff, mapError_eq_ok_iff, enter_eq_ok_iff]
  constructor
  · rintro ⟨s, hs, u, ⟨hnone, rfl⟩, h⟩
    exact ⟨s, hs, hnone, h⟩
  · rintro ⟨s, hs, hnone, h⟩
    exact ⟨s, hs, _, ⟨hnone, rfl⟩, h⟩

theorem get?_of_enterAll {k : String} {s : Subset} (h : enterAll read subsets l = .ok t)
    (hs : subsets.get? k = some s) : t.get? k = some s := by
  induction l generalizing subsets with
  | nil =>
      cases h
      exact hs
  | cons a l ih =>
      obtain ⟨s', -, hnone, hrest⟩ := enterAll_cons_eq_ok_iff.1 h
      refine ih hrest ?_
      have hne : k ≠ s'.dimension := by
        rintro rfl
        rw [hnone] at hs
        cases hs
      rw [Table.get?_insert_of_ne _ _ hne]
      exact hs

theorem exists_of_mem_of_enterAll {a : α} (h : enterAll read subsets l = .ok t) (ha : a ∈ l) :
    ∃ s, read a = .ok s ∧ t.get? s.dimension = some s := by
  induction l generalizing subsets with
  | nil => cases ha
  | cons b l ih =>
      obtain ⟨s, hs, -, hrest⟩ := enterAll_cons_eq_ok_iff.1 h
      rcases List.mem_cons.1 ha with rfl | ha
      · exact ⟨s, hs, get?_of_enterAll hrest (Table.get?_insert_self _ _ _)⟩
      · exact ih hrest ha

/-- What is entered has a dimension that is new. -/
theorem get?_eq_none_of_mem_of_enterAll {a : α} {s : Subset} (h : enterAll read subsets l = .ok t)
    (ha : a ∈ l) (hs : read a = .ok s) : subsets.get? s.dimension = none := by
  induction l generalizing subsets with
  | nil => cases ha
  | cons b l ih =>
      obtain ⟨s', hs', hnone, hrest⟩ := enterAll_cons_eq_ok_iff.1 h
      rcases List.mem_cons.1 ha with rfl | ha
      · obtain rfl : s' = s := Except.ok.inj (hs'.symm.trans hs)
        exact hnone
      · have hlater := ih hrest ha
        rw [Table.get?_insert] at hlater
        split at hlater
        next => cases hlater
        next => exact hlater

/-- No dimension is entered twice. -/
theorem pairwise_of_enterAll (h : enterAll read subsets l = .ok t) :
    l.Pairwise fun a b => ∀ s s', read a = .ok s → read b = .ok s' →
      s.dimension ≠ s'.dimension := by
  induction l generalizing subsets with
  | nil => exact .nil
  | cons a l ih =>
      obtain ⟨u, hu, -, hrest⟩ := enterAll_cons_eq_ok_iff.1 h
      refine .cons (fun b hb s s' hs hs' heq => ?_) (ih hrest)
      obtain rfl : u = s := Except.ok.inj (hu.symm.trans hs)
      have hnone := get?_eq_none_of_mem_of_enterAll hrest hb hs'
      rw [← heq, Table.get?_insert_self] at hnone
      cases hnone

/-- Every subset in the table is filed under its dimension and has been read, unless it was there
before. -/
theorem exists_of_mem_entries {e : String × Subset} (h : enterAll read subsets l = .ok t)
    (he : e ∈ t.entries) :
    e ∈ subsets.entries ∨ e.1 = e.2.dimension ∧ ∃ a ∈ l, read a = .ok e.2 := by
  induction l generalizing subsets with
  | nil =>
      cases h
      exact .inl he
  | cons a l ih =>
      obtain ⟨s, hs, -, hrest⟩ := enterAll_cons_eq_ok_iff.1 h
      rcases ih hrest with hmem | ⟨hkey, b, hb, hread⟩
      · rw [← Table.get?_eq_some_iff, Table.get?_insert] at hmem
        split at hmem
        next hk =>
          cases hmem
          exact .inr ⟨hk, a, List.mem_cons_self, hs⟩
        next => exact .inl (Table.get?_eq_some_iff.1 hmem)
      · exact .inr ⟨hkey, b, List.mem_cons_of_mem _ hb, hread⟩

/-- The same subsets are entered in every order, or in none. -/
theorem enterAll_eq_ok_iff_of_perm {l' : List α} (h : l.Perm l') :
    enterAll read subsets l = .ok t ↔ enterAll read subsets l' = .ok t := by
  induction h generalizing subsets with
  | nil => rfl
  | cons a _ ih => simp only [enterAll_cons_eq_ok_iff, ih]
  | swap a b l =>
      -- Two subsets that have been entered have different dimensions, so they may change places.
      have hswap {a b : α} (h : enterAll read subsets (a :: b :: l) = .ok t) :
          enterAll read subsets (b :: a :: l) = .ok t := by
        obtain ⟨s, hs, hnone, h⟩ := enterAll_cons_eq_ok_iff.1 h
        obtain ⟨s', hs', hnone', h⟩ := enterAll_cons_eq_ok_iff.1 h
        have hne : s'.dimension ≠ s.dimension := by
          intro he
          rw [he, Table.get?_insert_self] at hnone'
          cases hnone'
        rw [Table.get?_insert_of_ne _ _ hne] at hnone'
        refine enterAll_cons_eq_ok_iff.2 ⟨s', hs', hnone', ?_⟩
        refine enterAll_cons_eq_ok_iff.2 ⟨s, hs, ?_, ?_⟩
        · rw [Table.get?_insert_of_ne _ _ hne.symm, hnone]
        · rwa [Table.insert_insert_of_ne _ _ _ hne]
      exact ⟨hswap, hswap⟩
  | trans _ _ ih ih' => exact ih.trans ih'

/-- The rest of the entries of a table is entered behind the ones that are there. -/
theorem enterAll_entries {read : Subset → Except Subset.Refusal Subset}
    {front rest : List (String × Subset)} (hfront : subsets.entries = front)
    (hascending : (front ++ rest).Pairwise fun a b => a.1 < b.1)
    (h : ∀ e ∈ rest, e.1 = e.2.dimension ∧ read e.2 = .ok e.2) :
    ∃ t, enterAll read subsets (rest.map Prod.snd) = .ok t ∧ t.entries = front ++ rest := by
  induction rest generalizing subsets front with
  | nil => exact ⟨subsets, rfl, by rw [hfront, List.append_nil]⟩
  | cons e rest ih =>
      obtain ⟨hkey, hread⟩ := h e List.mem_cons_self
      have hlt : ∀ d ∈ front, d.1 < e.2.dimension := by
        intro d hd
        rw [← hkey]
        exact (List.pairwise_append.1 hascending).2.2 d hd e List.mem_cons_self
      have hnone : subsets.get? e.2.dimension = none := by
        rw [Option.eq_none_iff_forall_ne_some]
        intro s hs
        rw [Table.get?_eq_some_iff, hfront] at hs
        exact String.lt_irrefl _ (hlt _ hs)
      have hentries : (subsets.insert e.2.dimension e.2).entries = front ++ [e] := by
        change Table.insertEntry e.2.dimension e.2 subsets.entries = _
        rw [hfront, Table.insertEntry_of_forall_lt hlt, ← hkey]
      rw [List.append_cons] at hascending
      obtain ⟨t, ht, hall⟩ :=
        ih hentries hascending fun d hd => h d (List.mem_cons_of_mem _ hd)
      refine ⟨t, ?_, by rw [hall, ← List.append_cons]⟩
      exact enterAll_cons_eq_ok_iff.2 ⟨e.2, hread, hnone, ht⟩

/-- The values of a table are entered into the same table again. -/
theorem enterAll_values {read : Subset → Except Subset.Refusal Subset}
    (h : ∀ e ∈ t.entries, e.1 = e.2.dimension ∧ read e.2 = .ok e.2) :
    enterAll read ∅ t.values = .ok t := by
  obtain ⟨u, hu, hentries⟩ := enterAll_entries Table.entries_empty t.ascending h
  rw [Table.values, hu, Table.ext_entries hentries]

end Request

end CoverageAccess
