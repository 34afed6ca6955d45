import Mathlib.Algebra.BigOperators.Group.List.Basic
import Mathlib.Algebra.GroupWithZero.Nat
import Mathlib.Order.Monotone.Basic
import CoverageAccess.Time.Calendar
/-!
# Dates and days

Every day has a date, and the date has the number of that day (`Date.dayNumber_ofDayNumber`). The
year comes from `yearStart`, which is strictly monotone; the month and the day come from a walk along
the lengths of the months, which ends within the year because the lengths add up to it.
-/

namespace CoverageAccess

namespace Time

/-- Years begin in order. -/
theorem yearStart_lt_yearStart_iff {a b : Int} : yearStart a < yearStart b ↔ a < b := by
  have hmono : StrictMono yearStart := by
    refine strictMono_int_of_lt_succ fun year => ?_
    rw [yearStart_succ]
    split <;> omega
  exact hmono.lt_iff_lt

theorem yearStart_le_yearStart_iff {a b : Int} : yearStart a ≤ yearStart b ↔ a ≤ b := by
  rw [← not_lt, yearStart_lt_yearStart_iff, not_lt]

/-- The days between two years lie in the years between them. -/
theorem yearOf_bounds {first last n : Int} (hfirst : yearStart first ≤ n)
    (hlast : n < yearStart (last + 1)) : first ≤ yearOf n ∧ yearOf n ≤ last := by
  obtain ⟨hle, hlt⟩ := yearStart_yearOf_le n
  have hlow := yearStart_lt_yearStart_iff.1 (hfirst.trans_lt hlt)
  have hhigh := yearStart_lt_yearStart_iff.1 (hle.trans_lt hlast)
  omega

theorem sum_monthLengths (leap : Bool) : (monthLengths leap).sum = if leap then 366 else 365 := by
  cases leap <;> rfl

theorem length_monthLengths (leap : Bool) : (monthLengths leap).length = 12 := by
  cases leap <;> rfl

theorem getD_monthLengths_le (leap : Bool) (k : Nat) : (monthLengths leap).getD k 0 ≤ 31 := by
  have hlengths : ∀ l ∈ monthLengths leap, l ≤ 31 := by cases leap <;> decide
  rw [List.getD_eq_getElem?_getD]
  cases h : (monthLengths leap)[k]? with
  | none => exact Nat.zero_le _
  | some l => exact hlengths l (List.mem_of_getElem? h)

namespace Date

theorem day_le_of_isValid {d : Date} (h : d.isValid = true) : d.day ≤ 31 := by
  simp only [isValid, Bool.and_eq_true, decide_eq_true_eq] at h
  exact h.2.trans (getD_monthLengths_le _ _)

/-- A date falls into its year. -/
theorem dayOfYear_lt {d : Date} (h : d.isValid = true) :
    d.dayOfYear < if isLeap d.year then 366 else 365 := by
  simp only [isValid, Bool.and_eq_true, decide_eq_true_eq] at h
  obtain ⟨⟨⟨hmonth, hlast⟩, hfirst⟩, hday⟩ := h
  have hm : d.month - 1 < (monthLengths (isLeap d.year)).length := by
    rw [length_monthLengths]
    omega
  have hsum := List.sum_take_add_sum_drop (monthLengths (isLeap d.year)) (d.month - 1 + 1)
  rw [List.sum_take_succ _ _ hm, sum_monthLengths] at hsum
  rw [List.getD_eq_getElem?_getD, List.getElem?_eq_getElem hm, Option.getD_some] at hday
  rw [dayOfYear, ← List.sum_eq_foldl]
  omega

/-- The walk along the months ends in the month whose days hold the day. -/
theorem exists_monthAndDay {lengths : List Nat} {n : Nat} (h : n < lengths.sum) (first : Nat) :
    ∃ k d, ∃ hk : k < lengths.length, monthAndDay first lengths n = (first + k, d + 1) ∧
      d < lengths[k] ∧ (lengths.take k).sum + d = n := by
  induction lengths generalizing n first with
  | nil => cases h
  | cons l ls ih =>
      rw [monthAndDay]
      split
      next hl => exact ⟨0, n, Nat.zero_lt_succ _, rfl, hl, Nat.zero_add n⟩
      next hl =>
        rw [List.sum_cons] at h
        obtain ⟨k, d, hk, hwalk, hd, hsum⟩ := ih (n := n - l) (by omega) (first + 1)
        refine ⟨k + 1, d, Nat.succ_lt_succ hk, ?_, hd, ?_⟩
        · rw [hwalk, Nat.add_right_comm, Nat.add_assoc]
        · rw [List.take_succ_cons, List.sum_cons]
          omega

variable (n : Int)

/-- The date of a day: the year in which it falls, and a month and a day of that year. -/
theorem exists_ofDayNumber :
    ∃ k d, ∃ hk : k < (monthLengths (isLeap (yearOf (n + yearStart 1970)))).length,
      ofDayNumber n = ⟨yearOf (n + yearStart 1970), 1 + k, d + 1⟩ ∧
        d < (monthLengths (isLeap (yearOf (n + yearStart 1970))))[k] ∧
        yearStart (yearOf (n + yearStart 1970)) +
          (((monthLengths (isLeap (yearOf (n + yearStart 1970)))).take k).sum + d : Nat) =
            n + yearStart 1970 := by
  obtain ⟨hle, hlt⟩ := yearStart_yearOf_le (n + yearStart 1970)
  unfold ofDayNumber
  dsimp only
  generalize n + yearStart 1970 = days at *
  generalize yearOf days = year at *
  have hday : (days - yearStart year).toNat < (monthLengths (isLeap year)).sum := by
    rw [sum_monthLengths]
    rw [yearStart_succ] at hlt
    split at hlt <;> simp_all <;> omega
  obtain ⟨k, d, hk, hwalk, hd, hsum⟩ := exists_monthAndDay hday 1
  refine ⟨k, d, hk, ?_, hd, ?_⟩
  · rw [hwalk]
  · rw [hsum]
    omega

theorem year_ofDayNumber : (ofDayNumber n).year = yearOf (n + yearStart 1970) := by
  obtain ⟨k, d, -, h, -, -⟩ := exists_ofDayNumber n
  rw [h]

theorem isValid_ofDayNumber : (ofDayNumber n).isValid = true := by
  obtain ⟨k, d, hk, h, hd, -⟩ := exists_ofDayNumber n
  have hcount := hk
  rw [length_monthLengths] at hcount
  have hmonth : 1 + k - 1 = k := by omega
  have hlength : (monthLengths (isLeap (yearOf (n + yearStart 1970)))).getD k 0 =
      (monthLengths (isLeap (yearOf (n + yearStart 1970))))[k] := by
    rw [List.getD_eq_getElem?_getD, List.getElem?_eq_getElem hk]
    rfl
  rw [h]
  simp only [isValid, hmonth, hlength, Bool.and_eq_true, decide_eq_true_eq]
  omega

/-- The date of a day has the number of the day. -/
theorem dayNumber_ofDayNumber : (ofDayNumber n).dayNumber = n := by
  obtain ⟨k, d, -, h, -, hsum⟩ := exists_ofDayNumber n
  have hmonth : 1 + k - 1 = k := by omega
  rw [h, dayNumber, dayOfYear, ← List.sum_eq_foldl]
  simp only [hmonth]
  omega

end Date

end Time

end CoverageAccess
