/-!
# The calendar

Dates of the Gregorian calendar, extended to all years, year zero and negative years included.
`Date.dayNumber` counts days from the beginning of 1970; `Date.ofDayNumber` is its inverse. Both
rest on `yearStart`, the number of days before a year, which is a sum of floors; the year of a day
is an estimate by the mean length of a year, set right by one year at most.
-/

namespace CoverageAccess

namespace Time

def isLeap (year : Int) : Bool :=
  year % 4 = 0 && (year % 100 ≠ 0 || year % 400 = 0)

def monthLengths (leap : Bool) : List Nat :=
  [31, if leap then 29 else 28, 31, 30, 31, 30, 31, 31, 30, 31, 30, 31]

/-- The days from the beginning of year zero to the beginning of a year. -/
def yearStart (year : Int) : Int :=
  365 * year + (year + 3) / 4 - (year + 99) / 100 + (year + 399) / 400

/-- The year that day `n` falls into, counted from the beginning of year zero. -/
def yearOf (n : Int) : Int :=
  let year := 400 * n / 146097
  if n < yearStart year then year - 1
  else if yearStart (year + 1) ≤ n then year + 1
  else year

/-- A date; months and days count from one. -/
structure Date where
  year : Int
  month : Nat
  day : Nat
  deriving DecidableEq, Repr

namespace Date

def isValid (d : Date) : Bool :=
  1 ≤ d.month && d.month ≤ 12 && 1 ≤ d.day &&
    d.day ≤ (monthLengths (isLeap d.year)).getD (d.month - 1) 0

/-- The day of the year, counted from zero. -/
def dayOfYear (d : Date) : Nat :=
  ((monthLengths (isLeap d.year)).take (d.month - 1)).foldl (· + ·) 0 + (d.day - 1)

/-- The days from the beginning of 1970 to the date. -/
def dayNumber (d : Date) : Int :=
  yearStart d.year + d.dayOfYear - yearStart 1970

/-- The month and day in which day `n` falls, when `month` is the month of day zero and the months
from there on have the given lengths. -/
def monthAndDay (month : Nat) : List Nat → Nat → Nat × Nat
  | [], n => (month, n + 1)
  | l :: ls, n => if n < l then (month, n + 1) else monthAndDay (month + 1) ls (n - l)

/-- The date of a day counted from the beginning of 1970. -/
def ofDayNumber (n : Int) : Date :=
  let days := n + yearStart 1970
  let year := yearOf days
  let (month, day) := monthAndDay 1 (monthLengths (isLeap year)) (days - yearStart year).toNat
  ⟨year, month, day⟩

end Date

theorem yearStart_succ (year : Int) :
    yearStart (year + 1) = yearStart year + if isLeap year then 366 else 365 := by
  by_cases h4 : year % 4 = 0 <;> by_cases h100 : year % 100 = 0 <;>
    by_cases h400 : year % 400 = 0 <;> simp [yearStart, isLeap, h4, h100, h400] <;> omega

theorem yearStart_add_cycles (year q : Int) :
    yearStart (400 * q + year) = 146097 * q + yearStart year := by
  simp only [yearStart]
  omega

/-- Within one cycle the mean length of a year misses the year of a day by one at most. -/
theorem estimate_within_cycle : ∀ s : Fin 400,
    400 * yearStart (s - 1) ≤ 146097 * s ∧ 146097 * (s + 1) ≤ 400 * yearStart (s + 2) := by
  decide +kernel

/-- A day falls into its year. -/
theorem yearStart_yearOf_le (n : Int) :
    yearStart (yearOf n) ≤ n ∧ n < yearStart (yearOf n + 1) := by
  obtain ⟨q, s, hs, hy⟩ : ∃ (q : Int) (s : Nat), s < 400 ∧ 400 * n / 146097 = 400 * q + s :=
    ⟨400 * n / 146097 / 400, (400 * n / 146097 % 400).toNat, by omega, by omega⟩
  have bounds := estimate_within_cycle ⟨s, hs⟩
  have before := yearStart_add_cycles (s - 1) q
  have after := yearStart_add_cycles (s + 2) q
  simp only [yearOf, hy]
  have e1 : 400 * q + (s : Int) - 1 = 400 * q + (s - 1) := by omega
  have e2 : 400 * q + (s : Int) + 1 + 1 = 400 * q + (s + 2) := by omega
  split
  · have e3 : 400 * q + ((s : Int) - 1) + 1 = 400 * q + s := by omega
    rw [e1, before, e3]
    simp only at bounds
    omega
  · split
    · rw [e2, after]
      simp only at bounds
      omega
    · omega

end Time

end CoverageAccess
