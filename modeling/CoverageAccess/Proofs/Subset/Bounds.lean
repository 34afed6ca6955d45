import CoverageAccess.Proofs.Number.Integer
import CoverageAccess.Proofs.Outcome
import CoverageAccess.Subset.Markup
import CoverageAccess.Subset.Text
/-!
# Bounds of subsets

A subset is `Constructed` if one of the constructors made it, and `Inferred` if that constructor
found out from the bounds whether the subset goes by position. All that later proofs need to know of
a constructed subset is said of its bounds: each is clean, not empty and without a double quote,
those of a subset by position look like positions, and none of a subset by value is the wildcard.
-/

namespace CoverageAccess

namespace Selection

/-- The selection with other bounds. -/
def map (f : String → String) : Selection → Selection
  | .trim low high => .trim (f low) (f high)
  | .slice point => .slice (f point)

theorem map_eq_self {t : Selection} {f : String → String} (h : ∀ b ∈ t.bounds, f b = b) :
    t.map f = t := by
  cases t with
  | trim low high => rw [map, h low (by simp [bounds]), h high (by simp [bounds])]
  | slice point => rw [map, h point (by simp [bounds])]

end Selection

namespace Subset

/-- Made by a constructor that infers from the bounds whether the subset goes by position. -/
inductive Inferred : Subset → Prop
  | trim {dimension low high : String} {s : Subset} (h : trim dimension low high = .ok s) :
    Inferred s
  | slice {dimension point : String} {s : Subset} (h : slice dimension point = .ok s) : Inferred s
  | ofQuery {text : String} {s : Subset} (h : ofQuery text = .ok s) : Inferred s
  | ofElement {e : Markup.Element} {s : Subset} (h : ofElement e = .ok s) : Inferred s

/-- Made by one of the constructors. -/
inductive Constructed : Subset → Prop
  | inferred {s : Subset} (h : Inferred s) : Constructed s
  | valueTrim {dimension low high : String} {s : Subset}
    (h : valueTrim dimension low high = .ok s) : Constructed s
  | valueSlice {dimension point : String} {s : Subset} (h : valueSlice dimension point = .ok s) :
    Constructed s

/-- What every bound satisfies. -/
structure IsBound (bound : String) : Prop where
  clean : clean bound = bound
  ne_empty : bound ≠ ""
  quote : '"' ∉ bound.toList

variable {s : Subset} {dimension bound low high point : String}

/-- What looks like a position is written with digits, signs and the wildcard. -/
theorem mem_of_isPositionLike (h : isPositionLike bound = true) {c : Char}
    (hc : c ∈ bound.toList) : Number.isDigit c = true ∨ c = '+' ∨ c = '-' ∨ c = '*' := by
  rcases Bool.or_eq_true_iff.1 h with h | h
  · rw [beq_iff_eq.1 h] at hc
    exact .inr (.inr (.inr (by simpa [wildcard] using hc)))
  · obtain ⟨n, hn⟩ := Option.isSome_iff_exists.1 h
    exact (Number.mem_of_signed? hn hc).imp_right (.imp_right .inl)

theorem not_mem_of_isPositionLike (h : isPositionLike bound = true) {c : Char}
    (hc : ¬(Number.isDigit c = true ∨ c = '+' ∨ c = '-' ∨ c = '*')) : c ∉ bound.toList :=
  fun hmem => hc (mem_of_isPositionLike h hmem)

@[simp] theorem clean_clean (bound : String) : clean (clean bound) = clean bound := by
  simp [clean]

theorem checked_clean_eq_ok_iff {u : Unit} :
    checked dimension (clean bound) = .ok u ↔ IsBound (clean bound) := by
  cases u
  rw [checked_eq_ok_iff]
  constructor
  · rintro ⟨hne, hquote⟩
    refine ⟨clean_clean bound, hne, ?_⟩
    simpa [Text.mentions] using hquote
  · rintro ⟨-, hne, hquote⟩
    refine ⟨hne, ?_⟩
    simpa [Text.mentions] using hquote

/-- A range is made exactly if its bounds are bounds of one kind, and by position if both look like
positions. -/
theorem trim_eq_ok_iff :
    trim dimension low high = .ok s ↔
      IsBound (clean low) ∧ IsBound (clean high) ∧
        isPositionLike (clean low) = isPositionLike (clean high) ∧
        s = ⟨dimension, .trim (clean low) (clean high), isPositionLike (clean low)⟩ := by
  simp only [trim, bind_eq_ok_iff, checked_clean_eq_ok_iff, exists_const]
  refine and_congr_right fun _ => and_congr_right fun _ => ?_
  cases isPositionLike (clean low) <;> cases isPositionLike (clean high) <;>
    simp [pure_eq_ok_iff, eq_comm (a := s)]

theorem slice_eq_ok_iff :
    slice dimension point = .ok s ↔
      IsBound (clean point) ∧
        s = ⟨dimension, .slice (clean point), isPositionLike (clean point)⟩ := by
  simp only [slice, bind_eq_ok_iff, checked_clean_eq_ok_iff, exists_const, pure_eq_ok_iff]
  exact and_congr_right fun _ => eq_comm

theorem checkedValue_clean_eq_ok_iff {u : Unit} :
    checkedValue dimension (clean bound) = .ok u ↔
      IsBound (clean bound) ∧ clean bound ≠ wildcard := by
  simp only [checkedValue, bind_eq_ok_iff, checked_clean_eq_ok_iff, exists_const]
  refine and_congr_right fun _ => ?_
  split <;> simp_all

/-- A range of values is made exactly if its bounds are bounds other than the wildcard. -/
theorem valueTrim_eq_ok_iff :
    valueTrim dimension low high = .ok s ↔
      (IsBound (clean low) ∧ clean low ≠ wildcard) ∧
        (IsBound (clean high) ∧ clean high ≠ wildcard) ∧
        s = ⟨dimension, .trim (clean low) (clean high), false⟩ := by
  simp only [valueTrim, bind_eq_ok_iff, checkedValue_clean_eq_ok_iff, exists_const, pure_eq_ok_iff,
    eq_comm (a := s)]

theorem valueSlice_eq_ok_iff :
    valueSlice dimension point = .ok s ↔
      (IsBound (clean point) ∧ clean point ≠ wildcard) ∧
        s = ⟨dimension, .slice (clean point), false⟩ := by
  simp only [valueSlice, bind_eq_ok_iff, checkedValue_clean_eq_ok_iff, exists_const,
    pure_eq_ok_iff, eq_comm (a := s)]

/-- A text in a query is read as a range or a point of a dimension with a trimmed name. -/
theorem ofQuery_eq_ok {text : String} (h : ofQuery text = .ok s) :
    ∃ dimension, dimension ≠ "" ∧ Text.trim dimension = dimension ∧
      ((∃ low high, trim dimension low high = .ok s) ∨
        ∃ point, slice dimension point = .ok s) := by
  unfold ofQuery at h
  split at h
  next => cases h
  next d inner tail _ =>
    dsimp only at h
    split at h
    next => cases h
    next hne =>
      refine ⟨Text.trim (String.ofList d), hne, Text.trim_trim _, ?_⟩
      split at h
      next => cases h
      next =>
        split at h
        next low high _ => exact .inl ⟨_, _, h⟩
        next => exact .inr ⟨_, h⟩

theorem dimensionOf_eq_ok {e : Markup.Element} (h : dimensionOf e = .ok dimension) :
    e.childText? "Dimension" = some dimension := by
  unfold dimensionOf at h
  split at h
  next d hchild =>
    split at h
    next => cases h
    next => rw [hchild, Except.ok.inj h]
  next => cases h

/-- An element is read as a range or a point of the dimension that it names. -/
theorem ofElement_eq_ok {e : Markup.Element} (h : ofElement e = .ok s) :
    ∃ dimension, e.childText? "Dimension" = some dimension ∧
      ((∃ low high, trim dimension low high = .ok s) ∨
        ∃ point, slice dimension point = .ok s) := by
  unfold ofElement at h
  split at h
  next =>
    obtain ⟨d, hd, h⟩ := bind_eq_ok_iff.1 h
    exact ⟨d, dimensionOf_eq_ok hd, .inl ⟨_, _, h⟩⟩
  next =>
    split at h
    next =>
      split at h
      next => cases h
      next =>
        obtain ⟨d, hd, h⟩ := bind_eq_ok_iff.1 h
        exact ⟨d, dimensionOf_eq_ok hd, .inr ⟨_, h⟩⟩
    next => cases h

theorem childText?_dimension {e : Markup.Element} (h : ofElement e = .ok s) :
    e.childText? "Dimension" = some s.dimension := by
  obtain ⟨d, hd, ⟨low, high, h⟩ | ⟨point, h⟩⟩ := ofElement_eq_ok h
  · obtain ⟨-, -, -, rfl⟩ := trim_eq_ok_iff.1 h
    exact hd
  · obtain ⟨-, rfl⟩ := slice_eq_ok_iff.1 h
    exact hd

theorem Inferred.eq_ok (h : Inferred s) :
    ∃ dimension,
      (∃ low high, Subset.trim dimension low high = .ok s) ∨
        ∃ point, Subset.slice dimension point = .ok s := by
  cases h with
  | trim h => exact ⟨_, .inl ⟨_, _, h⟩⟩
  | slice h => exact ⟨_, .inr ⟨_, h⟩⟩
  | ofQuery h =>
      obtain ⟨d, -, -, h⟩ := ofQuery_eq_ok h
      exact ⟨d, h⟩
  | ofElement h =>
      obtain ⟨d, -, h⟩ := ofElement_eq_ok h
      exact ⟨d, h⟩

/-- An inferred subset has bounds of one kind, which is its own. -/
theorem Inferred.bounds (h : Inferred s) :
    ∀ b ∈ s.selection.bounds, IsBound b ∧ isPositionLike b = s.byPosition := by
  obtain ⟨d, ⟨low, high, h⟩ | ⟨point, h⟩⟩ := h.eq_ok
  · obtain ⟨hlow, hhigh, hkind, rfl⟩ := trim_eq_ok_iff.1 h
    simp [Selection.bounds, hlow, hhigh, hkind]
  · obtain ⟨hpoint, rfl⟩ := slice_eq_ok_iff.1 h
    simp [Selection.bounds, hpoint]

/-- The bounds of a constructed subset are bounds, and positions if the subset goes by position. -/
theorem Constructed.bounds (h : Constructed s) :
    ∀ b ∈ s.selection.bounds, IsBound b ∧ (s.byPosition = true → isPositionLike b = true) := by
  cases h with
  | inferred h =>
      intro b hb
      obtain ⟨hbound, hkind⟩ := h.bounds b hb
      exact ⟨hbound, fun hp => hkind.trans hp⟩
  | valueTrim h =>
      obtain ⟨⟨hlow, -⟩, ⟨hhigh, -⟩, rfl⟩ := valueTrim_eq_ok_iff.1 h
      simp [Selection.bounds, hlow, hhigh]
  | valueSlice h =>
      obtain ⟨⟨hpoint, -⟩, rfl⟩ := valueSlice_eq_ok_iff.1 h
      simp [Selection.bounds, hpoint]

/-- A constructed subset by value has no wildcard among its bounds. -/
theorem Constructed.ne_wildcard (h : Constructed s) (hs : s.byPosition = false) :
    ∀ b ∈ s.selection.bounds, b ≠ wildcard := by
  cases h with
  | inferred h =>
      rintro b hb rfl
      have hkind : isPositionLike wildcard = s.byPosition := (h.bounds _ hb).2
      rw [hs] at hkind
      exact absurd hkind (by decide)
  | valueTrim h =>
      obtain ⟨⟨-, hlow⟩, ⟨-, hhigh⟩, rfl⟩ := valueTrim_eq_ok_iff.1 h
      simp [Selection.bounds, hlow, hhigh]
  | valueSlice h =>
      obtain ⟨⟨-, hpoint⟩, rfl⟩ := valueSlice_eq_ok_iff.1 h
      simp [Selection.bounds, hpoint]

/-- A constructor that is given the bounds of an inferred subset makes this subset again. -/
theorem Inferred.eq_ok_self (h : Inferred s) :
    (∀ low high, s.selection = .trim low high → Subset.trim s.dimension low high = .ok s) ∧
      ∀ point, s.selection = .slice point → Subset.slice s.dimension point = .ok s := by
  have hbounds := h.bounds
  obtain ⟨d, selection, kind⟩ := s
  constructor
  · rintro low high rfl
    obtain ⟨hlow, klow⟩ := hbounds low (by simp [Selection.bounds])
    obtain ⟨hhigh, khigh⟩ := hbounds high (by simp [Selection.bounds])
    rw [trim_eq_ok_iff, hlow.clean, hhigh.clean]
    exact ⟨hlow, hhigh, klow.trans khigh.symm, by rw [klow]⟩
  · rintro point rfl
    obtain ⟨hpoint, kind⟩ := hbounds point (by simp [Selection.bounds])
    rw [slice_eq_ok_iff, hpoint.clean]
    exact ⟨hpoint, by rw [kind]⟩

end Subset

end CoverageAccess
