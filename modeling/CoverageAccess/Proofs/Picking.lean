/-!
# Members picked from a list

Ways to say what is taken from a list without saying how it is searched: the first member with a
property (`IsFirst`) or the last one (`IsLast`), and one thing for every member that is related to
something, in the order of the members (`Picks`). The searches of the standard library find exactly
these, also in a list whose members are read from those of another one.
-/

namespace CoverageAccess

variable {α β : Type}

/-- The member has the property, and no member before it has. -/
def IsFirst (p : α → Prop) (l : List α) (a : α) : Prop :=
  ∃ before after, l = before ++ a :: after ∧ p a ∧ ∀ b ∈ before, ¬p b

/-- The member has the property, and no member after it has. -/
def IsLast (p : α → Prop) (l : List α) (a : α) : Prop :=
  ∃ before after, l = before ++ a :: after ∧ p a ∧ ∀ b ∈ after, ¬p b

section Searches

variable {p : α → Prop} {q : α → Bool} {l : List α} {a : α}

theorem find?_eq_some_iff_isFirst (h : ∀ b, q b = true ↔ p b) :
    l.find? q = some a ↔ IsFirst p l a := by
  have hnot (b : α) : (!q b) = true ↔ ¬p b := by rw [← h b, Bool.not_eq_true', Bool.not_eq_true]
  simp only [List.find?_eq_some_iff_append, h, hnot]
  constructor
  · rintro ⟨ha, before, after, hl, hbefore⟩
    exact ⟨before, after, hl, ha, hbefore⟩
  · rintro ⟨before, after, hl, ha, hbefore⟩
    exact ⟨ha, before, after, hl, hbefore⟩

theorem IsFirst.holds (h : IsFirst p l a) : p a := by
  obtain ⟨-, -, -, ha, -⟩ := h
  exact ha

theorem IsLast.mem (h : IsLast p l a) : a ∈ l := by
  obtain ⟨before, after, rfl, -, -⟩ := h
  simp

theorem IsLast.holds (h : IsLast p l a) : p a := by
  obtain ⟨-, -, -, ha, -⟩ := h
  exact ha

theorem isFirst_reverse_iff : IsFirst p l.reverse a ↔ IsLast p l a := by
  constructor
  · rintro ⟨before, after, hl, ha, hbefore⟩
    refine ⟨after.reverse, before.reverse, ?_, ha, by simpa using hbefore⟩
    rw [← l.reverse_reverse, hl]
    simp
  · rintro ⟨before, after, rfl, ha, hafter⟩
    exact ⟨after.reverse, before.reverse, by simp, ha, by simpa using hafter⟩

/-- If a member has the property, then one of them is the last. -/
theorem exists_isLast (ha : a ∈ l) (hp : p a) : ∃ b, IsLast p l b := by
  classical
  have hfound : (l.reverse.find? fun b => decide (p b)).isSome = true := by
    rw [List.find?_isSome]
    exact ⟨a, List.mem_reverse.2 ha, decide_eq_true hp⟩
  obtain ⟨b, hb⟩ := Option.isSome_iff_exists.1 hfound
  exact ⟨b, isFirst_reverse_iff.1 ((find?_eq_some_iff_isFirst fun _ => decide_eq_true_iff).1 hb)⟩

variable {f : α → Option β} {r : β → Bool} {b : β}

/-- What is found among the things that are read from members is read from the first member with such a
thing. -/
theorem find?_filterMap_eq_some_iff (h : ∀ a, (∃ b, f a = some b ∧ r b = true) ↔ p a) :
    (l.filterMap f).find? r = some b ↔ ∃ a, IsFirst p l a ∧ f a = some b := by
  have hany (a : α) : (f a).any r = true ↔ p a := by rw [← h a, Option.any_eq_true]
  rw [List.find?_filterMap, Option.bind_eq_some_iff]
  exact exists_congr fun a => and_congr_left fun _ => find?_eq_some_iff_isFirst hany

theorem find?_filterMap_eq_none_iff (h : ∀ a, (∃ b, f a = some b ∧ r b = true) ↔ p a) :
    (l.filterMap f).find? r = none ↔ ∀ a ∈ l, ¬p a := by
  simp only [List.find?_eq_none, List.mem_filterMap, ← h]
  constructor
  · rintro hnone a ha ⟨b, hb, hr⟩
    exact hnone b ⟨a, ha, hb⟩ hr
  · rintro hnone b ⟨a, ha, hb⟩ hr
    exact hnone a ha ⟨b, hb, hr⟩

end Searches

/-- The second list has one thing for every member of the first that is related to something, in the
order of the members. -/
inductive Picks (r : α → β → Prop) : List α → List β → Prop
  | nil : Picks r [] []
  | skip {a : α} {l : List α} {m : List β} (ha : ∀ b, ¬r a b) (hl : Picks r l m) : Picks r (a :: l) m
  | pick {a : α} {b : β} {l : List α} {m : List β} (hb : r a b) (hl : Picks r l m) :
    Picks r (a :: l) (b :: m)

section Picks

variable {r : α → β → Prop} {f : α → Option β} {l : List α} {m : List β}

theorem picks_iff (h : ∀ a ∈ l, ∀ b, f a = some b ↔ r a b) : Picks r l m ↔ l.filterMap f = m := by
  induction l generalizing m with
  | nil =>
      constructor
      · intro hm
        cases hm
        rfl
      · rintro rfl
        exact .nil
  | cons a l ih =>
      obtain ⟨ha, hl⟩ := List.forall_mem_cons.1 h
      have ih := fun {m} => @ih m hl
      cases hf : f a with
      | none =>
          have hnone (b : β) : ¬r a b := by rw [← ha b, hf]; exact nofun
          rw [List.filterMap_cons_none hf, ← ih]
          constructor
          · intro hm
            cases hm with
            | skip _ hl => exact hl
            | pick hb _ => exact absurd hb (hnone _)
          · exact .skip hnone
      | some b =>
          have hb : r a b := (ha b).1 hf
          rw [List.filterMap_cons_some hf]
          constructor
          · intro hm
            cases hm with
            | skip hnone _ => exact absurd hb (hnone b)
            | pick hc hl =>
                rw [← ha, hf] at hc
                cases hc
                rw [ih.1 hl]
          · rintro rfl
            exact .pick hb (ih.2 rfl)

/-- Nothing is picked exactly if no member is related to anything. -/
theorem Picks.eq_nil_iff (h : Picks r l m) : m = [] ↔ ∀ a ∈ l, ∀ b, ¬r a b := by
  induction h with
  | nil => simp
  | skip ha _ ih => simp [ih, ha]
  | pick hb _ _ =>
      refine iff_of_false (List.cons_ne_nil _ _) fun hnone => ?_
      exact hnone _ List.mem_cons_self _ hb

end Picks

end CoverageAccess
