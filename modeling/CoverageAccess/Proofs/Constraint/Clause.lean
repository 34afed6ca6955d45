import CoverageAccess.Constraint
import CoverageAccess.Proofs.Outcome
import Mathlib.Data.List.Forall2
import Mathlib.Data.List.ReduceOption
/-!
# The parts of a clause

What the functions of the compiler answer, one by one: the checks of a selection, the fields it
names, the brackets after a variable, and the conditions around it. Later proofs cite these lemmas
and open none of the functions.
-/

namespace CoverageAccess

namespace Coverage

variable {c : Coverage} {subsets : Table Subset}

theorem checkSubset_eq_ok_iff {key : String} {s : Subset} :
    c.checkSubset key s = .ok () ↔ key = s.dimension ∧ (c.coordinate? key).isSome := by
  unfold checkSubset
  split
  next hne =>
    constructor
    · intro h
      cases h
    · rintro ⟨h, -⟩
      exact absurd h hne
  next heq =>
    have hkey : key = s.dimension := not_not.1 heq
    cases c.coordinate? key <;> simp [hkey]

/-- A table passes the checks exactly if every subset is filed under its dimension, which is an axis
of the coverage. -/
theorem checkSubsets_eq_ok_iff {entries : List (String × Subset)} :
    c.checkSubsets entries = .ok () ↔
      ∀ e ∈ entries, e.1 = e.2.dimension ∧ (c.coordinate? e.1).isSome := by
  induction entries with
  | nil => simp [checkSubsets]
  | cons e r ih =>
      obtain ⟨key, s⟩ := e
      rw [List.forall_mem_cons, ← ih, ← checkSubset_eq_ok_iff, checkSubsets, bind_eq_ok_iff]
      constructor
      · rintro ⟨⟨⟩, hs, hr⟩
        exact ⟨hs, hr⟩
      · rintro ⟨hs, hr⟩
        exact ⟨(), hs, hr⟩

/-- The fields of a list of names are those that a look-up of each name finds. -/
theorem fieldsNamed_eq_ok_iff {names : List String} {fs : List Field} :
    c.fieldsNamed names = .ok fs ↔ names.map c.field? = fs.map some := by
  induction names generalizing fs with
  | nil => cases fs <;> simp [fieldsNamed]
  | cons name r ih =>
      unfold fieldsNamed
      rw [List.map_cons]
      cases hf : c.field? name with
      | none => cases fs <;> simp
      | some f =>
          rw [map_eq_ok_iff]
          constructor
          · rintro ⟨rest, hr, rfl⟩
            rw [ih.1 hr, List.map_cons]
          · intro h
            obtain ⟨g, rest, rfl, hg, hr⟩ := List.map_eq_cons_iff.1 h.symm
            exact ⟨rest, ih.2 hr.symm, by rw [Option.some.inj hg]⟩

/-- The fields that a selection by names means: all fields in the order of the coverage when no name
is given, and otherwise the fields of the names in the order of the names. -/
def Selects (c : Coverage) (names : List String) (fs : List Field) : Prop :=
  (names = [] → fs = c.fields) ∧ (names ≠ [] → names.map c.field? = fs.map some)

theorem selectedFields_eq_ok_iff {names : List String} {fs : List Field} :
    c.selectedFields names = .ok fs ↔ c.Selects names fs := by
  unfold selectedFields Selects
  split
  next hn => simp [hn, eq_comm (b := fs)]
  next hn => simp [hn, fieldsNamed_eq_ok_iff]

theorem Selects.mem {names : List String} {fs : List Field} (h : c.Selects names fs) :
    ∀ f ∈ fs, f ∈ c.fields := by
  intro f hf
  by_cases hn : names = []
  · rwa [← h.1 hn]
  · have hsome : some f ∈ names.map c.field? := by
      rw [h.2 hn]
      exact List.mem_map_of_mem hf
    obtain ⟨name, -, hname⟩ := List.mem_map.1 hsome
    exact List.mem_of_find?_eq_some hname

theorem Selects.ne_nil {names : List String} {fs : List Field} (h : c.Selects names fs)
    (hc : c.fields ≠ []) : fs ≠ [] := by
  by_cases hn : names = []
  · rwa [h.1 hn]
  · intro hfs
    have := h.2 hn
    rw [hfs, List.map_nil, List.map_eq_nil_iff] at this
    exact hn this

theorem brackets_eq_nil {axes : List Coordinate}
    (h : ∀ a ∈ axes, bracketOf? subsets a = none) : brackets subsets axes = [] := by
  have hany : (axes.map (bracketOf? subsets)).any Option.isSome = false := by
    rw [List.any_map, List.any_eq_false]
    intro a ha
    simp [h a ha]
  simp [brackets, hany]

theorem brackets_eq_map {axes : List Coordinate} {a : Coordinate} (ha : a ∈ axes)
    (hb : (bracketOf? subsets a).isSome) :
    brackets subsets axes = axes.map fun a => (bracketOf? subsets a).getD "[*]" := by
  have hany : (axes.map (bracketOf? subsets)).any Option.isSome = true := by
    rw [List.any_map, List.any_eq_true]
    exact ⟨a, ha, hb⟩
  simp [brackets, hany]

/-- The bracket of an axis is that of a subset, or stands for the whole axis. -/
theorem mem_brackets {axes : List Coordinate} {text : String} (h : text ∈ brackets subsets axes) :
    text = "[*]" ∨ ∃ e ∈ subsets.entries, e.2.bracket? = some text := by
  unfold brackets at h
  dsimp only at h
  split at h
  · rw [List.map_map] at h
    obtain ⟨a, -, rfl⟩ := List.mem_map.1 h
    simp only [Function.comp_apply]
    cases hb : bracketOf? subsets a with
    | none => exact .inl rfl
    | some b =>
        obtain ⟨s, hget, hbracket⟩ := Option.bind_eq_some_iff.1 hb
        exact .inr ⟨_, Table.get?_eq_some_iff.1 hget, hbracket⟩
  · cases h

/-- The conditions are those of the single axes, in order, without the axes that have none. -/
theorem conditions_eq_ok_iff {axes : List Coordinate} {texts : List String} :
    conditions subsets axes = .ok texts ↔
      ∃ found, List.Forall₂ (fun a o => conditionOf subsets a = .ok o) axes found ∧
        found.reduceOption = texts := by
  induction axes generalizing texts with
  | nil => simp [conditions]
  | cons a r ih =>
      rw [conditions]
      constructor
      · intro h
        obtain ⟨o, ho, h⟩ := bind_eq_ok_iff.1 h
        obtain ⟨rest, hr, h⟩ := bind_eq_ok_iff.1 h
        obtain ⟨found, hfound, rfl⟩ := ih.1 hr
        refine ⟨o :: found, .cons ho hfound, ?_⟩
        rw [← pure_eq_ok_iff.1 h]
        cases o <;> rfl
      · rintro ⟨found, hfound, rfl⟩
        obtain ⟨o, rest, ho, hrest, rfl⟩ := List.forall₂_cons_left_iff.1 hfound
        have hr := ih.2 ⟨rest, hrest, rfl⟩
        rw [ho, ok_bind, hr, ok_bind]
        cases o <;> rfl

theorem conditions_of_forall_byPosition (h : ∀ e ∈ subsets.entries, e.2.byPosition = true)
    (axes : List Coordinate) : conditions subsets axes = .ok [] := by
  refine conditions_eq_ok_iff.2 ⟨axes.map fun _ => none, ?_, ?_⟩
  · rw [List.forall₂_map_right_iff, List.forall₂_same]
    intro a _
    unfold conditionOf
    split
    next => rfl
    next s hs =>
      have hp : s.byPosition = true := h _ (Table.get?_eq_some_iff.1 hs)
      rw [if_pos hp]
  · rw [List.map_const', List.reduceOption_replicate_none]

theorem clause_of_forall_byPosition (h : ∀ e ∈ subsets.entries, e.2.byPosition = true)
    (c : Coverage) (f : Field) :
    c.clause subsets f = .ok ⟨f.variableId, brackets subsets c.coordinates, []⟩ := by
  rw [clause, conditions_of_forall_byPosition h, ok_bind]
  rfl

/-- The texts of some fields are those of the single fields, in order. -/
theorem forall₂_of_fieldTexts {scaling : Scaling} {fs : List Field} {texts : List String}
    (h : c.fieldTexts subsets scaling fs = .ok texts) :
    List.Forall₂ (fun f t => c.fieldText subsets scaling f = .ok t) fs texts := by
  induction fs generalizing texts with
  | nil =>
      cases h
      exact .nil
  | cons f fs ih =>
      obtain ⟨t, ht, h⟩ := bind_eq_ok_iff.1 h
      obtain ⟨rest, hrest, h⟩ := bind_eq_ok_iff.1 h
      rw [← pure_eq_ok_iff.1 h]
      exact .cons ht (ih hrest)

/-- An expression is the texts of the selected fields, with commas between them. -/
theorem exists_of_expression {scaling : Scaling} {names : List String} {text : String}
    (h : c.expression names subsets scaling = .ok text) :
    c.checkSubsets subsets.entries = .ok () ∧
      ∃ fs texts, c.Selects names fs ∧ text = Text.join "," texts ∧
        c.fieldTexts subsets scaling fs = .ok texts := by
  obtain ⟨⟨⟩, hchecks, h⟩ := bind_eq_ok_iff.1 h
  obtain ⟨fs, hfs, h⟩ := bind_eq_ok_iff.1 h
  obtain ⟨texts, htexts, h⟩ := bind_eq_ok_iff.1 h
  exact ⟨mapError_eq_ok_iff.1 hchecks, fs, texts,
    selectedFields_eq_ok_iff.1 (mapError_eq_ok_iff.1 hfs), (pure_eq_ok_iff.1 h).symm, htexts⟩

end Coverage

end CoverageAccess
