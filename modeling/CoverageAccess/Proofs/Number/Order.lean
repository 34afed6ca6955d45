import Mathlib.Data.Prod.Lex
import Mathlib.Order.Compare
import CoverageAccess.Number.Real
/-!
# The order of numbers

Numbers of 64 bits are compared as their places in a linear order (`rank`), except that a NaN is
comparable with nothing (`lt_iff`, `le_iff`, `beq_iff`). So numbers other than the NaN are ordered up
to the sign of zero, and `lesser` and `greater` answer one of their arguments, which bounds both.
-/

namespace CoverageAccess

namespace Number

open Float.Model Float.Model.UnpackedFloat

/-- The place of an unpacked number: infinities at the ends, zero in the middle, and the numbers
between by exponent and significand. -/
def rankOf : UnpackedFloat → ℤ ×ₗ ℤ ×ₗ ℤ
  | .infinity .negative => toLex (-2, toLex (0, 0))
  | .finite .negative m q _ => toLex (-1, toLex (-q, -m))
  | .zero _ | .notANumber => toLex (0, toLex (0, 0))
  | .finite .positive m q _ => toLex (1, toLex (q, m))
  | .infinity .positive => toLex (2, toLex (0, 0))

theorem compare_neg (a b : ℤ) : compare (-a) (-b) = (compare a b).swap := by
  rcases lt_trichotomy a b with h | rfl | h
  · rw [compare_lt_iff_lt.2 h, compare_gt_iff_gt.2 (Int.neg_lt_neg h)]
    rfl
  · simp
  · rw [compare_gt_iff_gt.2 h, compare_lt_iff_lt.2 (Int.neg_lt_neg h)]
    rfl

theorem compare_natCast (m n : ℕ) : compare (m : ℤ) n = compare m n := by
  rcases lt_trichotomy m n with h | rfl | h
  · rw [compare_lt_iff_lt.2 h, compare_lt_iff_lt.2 (Int.ofNat_lt.2 h)]
  · simp
  · rw [compare_gt_iff_gt.2 h, compare_gt_iff_gt.2 (Int.ofNat_lt.2 h)]

theorem compare_places (k q q' m m' : ℤ) :
    compare (toLex (k, toLex (q, m))) (toLex (k, toLex (q', m'))) =
      (compare q q').then (compare m m') := by
  change (compare k k).then _ = _
  rw [Std.compare_self]
  rfl

/-- Core compares numbers as their places. -/
theorem compare_eq {a b : UnpackedFloat} (ha : a ≠ .notANumber) (hb : b ≠ .notANumber) :
    a.compare b = some (compare (rankOf a) (rankOf b)) := by
  cases a with
  | notANumber => exact (ha rfl).elim
  | infinity s =>
      cases b with
      | notANumber => exact (hb rfl).elim
      | infinity s' => cases s <;> cases s' <;> rfl
      | zero s' => cases s <;> rfl
      | finite s' m' q' h' => cases s <;> cases s' <;> rfl
  | zero s =>
      cases b with
      | notANumber => exact (hb rfl).elim
      | infinity s' => cases s' <;> rfl
      | zero s' => rfl
      | finite s' m' q' h' => cases s' <;> rfl
  | finite s m q h =>
      cases b with
      | notANumber => exact (hb rfl).elim
      | infinity s' => cases s <;> cases s' <;> rfl
      | zero s' => cases s <;> rfl
      | finite s' m' q' h' =>
          -- exponent and significand matter between numbers of one sign only
          cases s <;> cases s'
          case negative.negative =>
            have hplaces := compare_places (-1) (-q) (-q') (-m) (-m')
            rw [compare_neg, compare_neg, compare_natCast, ← Ordering.swap_then] at hplaces
            exact congrArg some hplaces.symm
          case positive.positive =>
            have hplaces := compare_places 1 q q' m m'
            rw [compare_natCast] at hplaces
            exact congrArg some hplaces.symm
          all_goals rfl

theorem compare_eq_none {a b : UnpackedFloat} (h : a = .notANumber ∨ b = .notANumber) :
    a.compare b = none := by
  obtain rfl | rfl := h
  · rfl
  · rcases a with ⟨_ | _⟩ | _ | _ | ⟨_ | _, _⟩ <;> rfl

theorem isNaN_eq_false_iff {a : UnpackedFloat} : a.isNaN = false ↔ a ≠ .notANumber := by
  cases a with
  | notANumber => exact iff_of_false (fun h => by cases h) fun h => h rfl
  | _ => exact iff_of_true rfl fun h => by cases h

/-- The comparison of two numbers has an outcome exactly if neither is a NaN, and it is that of their
places. -/
theorem compare_eq_some_iff {a b : UnpackedFloat} {o : Ordering} :
    a.compare b = some o ↔
      a.isNaN = false ∧ b.isNaN = false ∧ compare (rankOf a) (rankOf b) = o := by
  rw [isNaN_eq_false_iff, isNaN_eq_false_iff]
  by_cases h : a = .notANumber ∨ b = .notANumber
  · rw [compare_eq_none h]
    obtain h | h := h <;> simp [h]
  · rw [not_or] at h
    simp [compare_eq h.1 h.2, h]

/-- The place of a number in the order. -/
def rank (x : Float) : ℤ ×ₗ ℤ ×ₗ ℤ :=
  rankOf x.toModel.unpack

variable {x y z : Float}

theorem lt_iff : x < y ↔ x.isNaN = false ∧ y.isNaN = false ∧ rank x < rank y := by
  change (decide (UnpackedFloat.lt x.toModel.unpack y.toModel.unpack = true) = true) ↔ _
  rw [decide_eq_true_iff, UnpackedFloat.lt, beq_iff_eq, compare_eq_some_iff, compare_lt_iff_lt]
  rfl

theorem beq_iff : (x == y) = true ↔ x.isNaN = false ∧ y.isNaN = false ∧ rank x = rank y := by
  change (UnpackedFloat.compare x.toModel.unpack y.toModel.unpack == some .eq) = true ↔ _
  rw [beq_iff_eq, compare_eq_some_iff, compare_eq_iff_eq]
  rfl

theorem le_iff : x ≤ y ↔ x.isNaN = false ∧ y.isNaN = false ∧ rank x ≤ rank y := by
  change (decide (UnpackedFloat.le x.toModel.unpack y.toModel.unpack = true) = true) ↔ _
  rw [decide_eq_true_iff, UnpackedFloat.le, Option.any_eq_true]
  simp only [compare_eq_some_iff, ← Ordering.ne_gt_iff_isLE]
  constructor
  · rintro ⟨o, ⟨hx, hy, rfl⟩, ho⟩
    exact ⟨hx, hy, compare_le_iff_le.1 ho⟩
  · rintro ⟨hx, hy, h⟩
    exact ⟨_, ⟨hx, hy, rfl⟩, compare_le_iff_le.2 h⟩

theorem le_rfl_of_isNaN (hx : x.isNaN = false) : x ≤ x :=
  le_iff.2 ⟨hx, hx, le_rfl⟩

protected theorem le_trans (h : x ≤ y) (h' : y ≤ z) : x ≤ z := by
  obtain ⟨hx, -, h⟩ := le_iff.1 h
  obtain ⟨-, hz, h'⟩ := le_iff.1 h'
  exact le_iff.2 ⟨hx, hz, h.trans h'⟩

theorem beq_of_le_of_le (h : x ≤ y) (h' : y ≤ x) : (x == y) = true := by
  obtain ⟨hx, hy, h⟩ := le_iff.1 h
  obtain ⟨-, -, h'⟩ := le_iff.1 h'
  exact beq_iff.2 ⟨hx, hy, le_antisymm h h'⟩

protected theorem le_of_not_lt (hx : x.isNaN = false) (hy : y.isNaN = false) (h : ¬x < y) : y ≤ x :=
  le_iff.2 ⟨hy, hx, not_lt.1 fun hlt => h (lt_iff.2 ⟨hx, hy, hlt⟩)⟩

protected theorem le_of_lt (h : x < y) : x ≤ y := by
  obtain ⟨hx, hy, h⟩ := lt_iff.1 h
  exact le_iff.2 ⟨hx, hy, h.le⟩

theorem lesser_eq_or (x y : Float) : lesser x y = x ∨ lesser x y = y := by
  unfold lesser
  split
  · exact .inr rfl
  · split
    · exact .inl rfl
    · split
      · exact .inr rfl
      · exact .inl rfl

theorem greater_eq_or (x y : Float) : greater x y = x ∨ greater x y = y := by
  unfold greater
  split
  · exact .inr rfl
  · split
    · exact .inl rfl
    · split
      · exact .inr rfl
      · exact .inl rfl

theorem lesser_le (hx : x.isNaN = false) (hy : y.isNaN = false) :
    lesser x y ≤ x ∧ lesser x y ≤ y := by
  simp only [lesser, hx, hy, Bool.false_eq_true, if_false]
  split
  next h => exact ⟨Number.le_of_lt h, le_rfl_of_isNaN hy⟩
  next h => exact ⟨le_rfl_of_isNaN hx, Number.le_of_not_lt hy hx h⟩

theorem le_greater (hx : x.isNaN = false) (hy : y.isNaN = false) :
    x ≤ greater x y ∧ y ≤ greater x y := by
  simp only [greater, hx, hy, Bool.false_eq_true, if_false]
  split
  next h => exact ⟨Number.le_of_lt h, le_rfl_of_isNaN hy⟩
  next h => exact ⟨le_rfl_of_isNaN hx, Number.le_of_not_lt hx hy h⟩

end Number

end CoverageAccess
