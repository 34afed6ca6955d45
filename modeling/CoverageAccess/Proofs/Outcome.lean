import Mathlib.Data.List.Forall2
/-!
# Outcomes of steps that may fail

A chain of steps in `Except` answers exactly if every step does. The lemmas here take such a chain
apart, so that no proof has to unfold the monad.
-/

namespace CoverageAccess

variable {ε ε' α β : Type}

/-- A chain answers exactly if its first step does and the rest does with its answer. -/
theorem bind_eq_ok_iff {x : Except ε α} {f : α → Except ε β} {b : β} :
    x >>= f = .ok b ↔ ∃ a, x = .ok a ∧ f a = .ok b := by
  cases x with
  | error e =>
      constructor
      · intro h
        cases h
      · rintro ⟨a, ha, -⟩
        cases ha
  | ok a =>
      constructor
      · intro h
        exact ⟨a, rfl, h⟩
      · rintro ⟨a', ha, h⟩
        cases ha
        exact h

@[simp] theorem ok_bind (a : α) (f : α → Except ε β) : (Except.ok a >>= f) = f a := rfl

@[simp] theorem error_bind (e : ε) (f : α → Except ε β) :
    (Except.error e >>= f) = .error e := rfl

@[simp] theorem mapError_ok (a : α) (f : ε → ε') :
    (Except.ok a : Except ε α).mapError f = .ok a := rfl

@[simp] theorem mapError_error (e : ε) (f : ε → ε') :
    (Except.error e : Except ε α).mapError f = .error (f e) := rfl

/-- Another name for the causes of failure changes no answer. -/
@[simp] theorem mapError_eq_ok_iff {x : Except ε α} {f : ε → ε'} {a : α} :
    x.mapError f = .ok a ↔ x = .ok a := by
  cases x <;> simp

@[simp] theorem map_eq_ok_iff {x : Except ε α} {f : α → β} {b : β} :
    x.map f = .ok b ↔ ∃ a, x = .ok a ∧ f a = b := by
  cases x <;> simp [Except.map]

theorem toOption_eq_some_iff {x : Except ε α} {a : α} : x.toOption = some a ↔ x = .ok a := by
  cases x <;> simp [Except.toOption]

theorem pure_eq_ok_iff {a b : α} : (pure a : Except ε α) = .ok b ↔ a = b :=
  Except.ok.injEq a b ▸ Iff.rfl

/-- A chain fails exactly if its first step does or the rest does with its answer. -/
theorem bind_eq_error_iff {x : Except ε α} {f : α → Except ε β} {e : ε} :
    x >>= f = .error e ↔ x = .error e ∨ ∃ a, x = .ok a ∧ f a = .error e := by
  cases x <;> simp

@[simp] theorem mapError_eq_error_iff {x : Except ε α} {f : ε → ε'} {e : ε'} :
    x.mapError f = .error e ↔ ∃ cause, x = .error cause ∧ f cause = e := by
  cases x <;> simp

@[simp] theorem map_eq_error_iff {x : Except ε α} {f : α → β} {e : ε} :
    x.map f = .error e ↔ x = .error e := by
  cases x <;> simp [Except.map]

/-- What holds of some answer holds of the answer. -/
theorem exists_eq_ok_and_iff {x : Except ε α} {a : α} {p : α → Prop} (h : x = .ok a) :
    (∃ b, x = .ok b ∧ p b) ↔ p a := by
  simp [h]

/-- What has no answer has a failure. -/
theorem exists_error_iff {x : Except ε α} : (∃ e, x = .error e) ↔ ¬∃ a, x = .ok a := by
  cases x <;> simp

/-- A chain has an answer exactly if its first step has one and the rest has one whatever that is. -/
theorem exists_bind_iff {x : Except ε α} {f : α → Except ε β} {p : Prop}
    (h : ∀ a, x = .ok a → ((∃ b, f a = .ok b) ↔ p)) :
    (∃ b, x >>= f = .ok b) ↔ (∃ a, x = .ok a) ∧ p := by
  cases x with
  | error e => simp
  | ok a => simp [h a rfl]

theorem exists_bind_pure_iff {x : Except ε α} {f : α → β} :
    (∃ b, (x >>= fun a => pure (f a)) = .ok b) ↔ ∃ a, x = .ok a := by
  have hpure (a : α) (_ : x = .ok a) : (∃ b, (pure (f a) : Except ε β) = .ok b) ↔ True :=
    iff_true_intro ⟨f a, rfl⟩
  rw [exists_bind_iff hpure, and_true]

/-- Both fail, or both answer and the answers are related. -/
inductive Together (r : α → β → Prop) : Except ε α → Except ε' β → Prop
  | failed {e : ε} {e' : ε'} : Together r (.error e) (.error e')
  | answered {a : α} {b : β} (h : r a b) : Together r (.ok a) (.ok b)

theorem Together.of_iff {r : α → β → Prop} {x : Except ε α} {y : Except ε' β}
    (h : (∃ a, x = .ok a) ↔ ∃ b, y = .ok b)
    (hr : ∀ a b, x = .ok a → y = .ok b → r a b) : Together r x y := by
  cases x with
  | error e =>
      cases y with
      | error e' => exact .failed
      | ok b =>
          obtain ⟨a, ha⟩ := h.2 ⟨b, rfl⟩
          cases ha
  | ok a =>
      obtain ⟨b, rfl⟩ := h.1 ⟨a, rfl⟩
      exact .answered (hr a b rfl rfl)

theorem Together.of_forall_iff {x : Except ε α} {y : Except ε' α}
    (h : ∀ a, x = .ok a ↔ y = .ok a) : Together Eq x y := by
  refine .of_iff (exists_congr h) fun a b ha hb => ?_
  rw [h a, hb] at ha
  exact (Except.ok.inj ha).symm

theorem Together.imp {r s : α → β → Prop} {x : Except ε α} {y : Except ε' β}
    (h : Together r x y) (hrs : ∀ a b, r a b → s a b) : Together s x y := by
  cases h with
  | failed => exact .failed
  | answered h => exact .answered (hrs _ _ h)

section Lists

variable {l : List α} {m : List β}

theorem exists_of_mem_of_forall₂ {r : α → β → Prop} (h : List.Forall₂ r l m) {b : β}
    (hb : b ∈ m) : ∃ a ∈ l, r a b := by
  induction h with
  | nil => cases hb
  | cons hr _ ih =>
      rcases List.mem_cons.1 hb with rfl | hb
      · exact ⟨_, List.mem_cons_self, hr⟩
      · obtain ⟨a, ha, h⟩ := ih hb
        exact ⟨a, List.mem_cons_of_mem _ ha, h⟩

theorem exists_of_mem_of_forall₂_of_forall₂ {r r' : α → β → Prop} (h : List.Forall₂ r l m)
    (h' : List.Forall₂ r' l m) {a : α} (ha : a ∈ l) : ∃ b, r a b ∧ r' a b := by
  induction h with
  | nil => cases ha
  | cons hr _ ih =>
      obtain ⟨hr', h'⟩ := List.forall₂_cons.1 h'
      rcases List.mem_cons.1 ha with rfl | ha
      · exact ⟨_, hr, hr'⟩
      · exact ih h' ha

/-- The answers for a list are those for its members, in order. -/
theorem mapM_eq_ok_iff {f : α → Except ε β} :
    l.mapM f = .ok m ↔ List.Forall₂ (fun a b => f a = .ok b) l m := by
  induction l generalizing m with
  | nil => cases m <;> simp [pure, Except.pure]
  | cons a l ih =>
      rw [List.mapM_cons, bind_eq_ok_iff]
      constructor
      · rintro ⟨b, hb, h⟩
        obtain ⟨rest, hrest, h⟩ := bind_eq_ok_iff.1 h
        rw [← pure_eq_ok_iff.1 h]
        exact .cons hb (ih.1 hrest)
      · intro h
        cases h with
        | cons hb hrest => exact ⟨_, hb, bind_eq_ok_iff.2 ⟨_, ih.2 hrest, rfl⟩⟩

/-- A list is answered for only if each of its members is. -/
theorem exists_of_mem_of_mapM {f : α → Except ε β} {a : α} (h : l.mapM f = .ok m) (ha : a ∈ l) :
    ∃ b, f a = .ok b := by
  obtain ⟨b, -, hb⟩ := exists_of_mem_of_forall₂ (mapM_eq_ok_iff.1 h).flip ha
  exact ⟨b, hb⟩

/-- What is written of every member is read back in a list of them. -/
theorem mapM_map_eq_ok {write : α → β} {read : β → Except ε α}
    (h : ∀ a ∈ l, read (write a) = .ok a) : (l.map write).mapM read = .ok l :=
  mapM_eq_ok_iff.2 (List.forall₂_map_left_iff.2 (List.forall₂_same.2 h))

end Lists

end CoverageAccess
