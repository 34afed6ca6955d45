import CoverageAccess.Proofs.Time.Calendar
import CoverageAccess.Time.Instant
/-!
# Instants and their dates

The date and the time of day of an instant make it up again, and the year lies within the bounds of
the type (`Instant.year_bounds`). `Instant.toMilli` drops the parts of a millisecond: it keeps the
date and the time of day up to the millisecond, and the order of instants.
-/

namespace CoverageAccess

namespace Time

theorem milli_eq : milli = 1000000 := rfl

theorem second_eq : second = 1000000000 := rfl

theorem day_eq : day = 86400000000000 := rfl

theorem Clock.sinceMidnight_ofNanos (n : Nat) : (Clock.ofNanos n).sinceMidnight = n := by
  simp only [ofNanos, sinceMidnight]
  omega

theorem Clock.isValid_ofNanos {n : Nat} (h : n < 86400000000000) :
    (Clock.ofNanos n).isValid = true := by
  simp only [isValid, Bool.and_eq_true, decide_eq_true_eq]
  simp only [ofNanos]
  omega

theorem Clock.sinceMidnight_lt {c : Clock} (h : c.isValid = true) :
    c.sinceMidnight < 86400000000000 := by
  simp only [isValid, Bool.and_eq_true, decide_eq_true_eq] at h
  rw [sinceMidnight]
  omega

namespace Instant

/-- The days from the beginning of 1970 to the one of the instant. -/
theorem day_bounds (i : Instant) :
    yearStart (-262143) - yearStart 1970 ≤ i.nanos / day ∧
      i.nanos / day < yearStart 262143 - yearStart 1970 := by
  have hday : 0 < day := by decide
  constructor
  · exact (Int.le_ediv_iff_mul_le hday).2 i.earliest_le
  · exact (Int.ediv_lt_iff_lt_mul hday).2 (Int.lt_of_le_sub_one i.le_latest)

/-- The year of an instant lies within the bounds of the type. -/
theorem year_bounds (i : Instant) : -262143 ≤ i.date.year ∧ i.date.year ≤ 262142 := by
  obtain ⟨hlow, hhigh⟩ := i.day_bounds
  rw [date, Date.year_ofDayNumber]
  exact yearOf_bounds (by omega) (Int.add_lt_of_lt_sub_right hhigh)

/-- The nanoseconds since midnight are those of a day. -/
theorem sinceMidnight_clock (i : Instant) : (i.clock.sinceMidnight : Int) = i.nanos % day := by
  have hnonneg : 0 ≤ i.nanos % day := Int.emod_nonneg _ (by decide)
  rw [clock, Clock.sinceMidnight_ofNanos, Int.toNat_of_nonneg hnonneg]

theorem isValid_date (i : Instant) : i.date.isValid = true :=
  Date.isValid_ofDayNumber _

theorem isValid_clock (i : Instant) : i.clock.isValid = true := by
  apply Clock.isValid_ofNanos
  rw [day_eq]
  omega

/-- The date and the time of day of an instant make it up again. -/
theorem ofDateAndClock?_date_clock (i : Instant) :
    ofDateAndClock? i.date i.clock = some i := by
  have hnanos : i.date.dayNumber * day + i.clock.sinceMidnight = i.nanos := by
    rw [date, Date.dayNumber_ofDayNumber, sinceMidnight_clock]
    exact Int.ediv_mul_add_emod _ _
  rw [ofDateAndClock?, isValid_date, isValid_clock, hnanos]
  exact ofNanos?_nanos i

/-- Every date and time of day within the bounds is an instant. -/
theorem exists_ofDateAndClock? {d : Date} {c : Clock} (hd : d.isValid = true)
    (hc : c.isValid = true) (hfirst : -262143 ≤ d.year) (hlast : d.year ≤ 262142) :
    ∃ i, ofDateAndClock? d c = some i := by
  have hday := Date.dayOfYear_lt hd
  have hlow := yearStart_le_yearStart_iff.2 hfirst
  have hhigh := yearStart_le_yearStart_iff.2 (show d.year + 1 ≤ 262143 by omega)
  rw [yearStart_succ] at hhigh
  have hlength : (d.dayOfYear : Int) < if isLeap d.year then 366 else 365 := by
    split at hday
    next hleap =>
      rw [if_pos hleap]
      exact Int.ofNat_lt.2 hday
    next hleap =>
      rw [if_neg hleap]
      exact Int.ofNat_lt.2 hday
  have hmidnight := Clock.sinceMidnight_lt hc
  have hbounds : earliest ≤ d.dayNumber * day + c.sinceMidnight ∧
      d.dayNumber * day + c.sinceMidnight ≤ latest := by
    rw [earliest, latest, Date.dayNumber, day_eq]
    omega
  refine ⟨⟨d.dayNumber * day + c.sinceMidnight, hbounds.1, hbounds.2⟩, ?_⟩
  rw [ofDateAndClock?, hd, hc, ofNanos?, dif_pos hbounds]
  rfl

theorem ofDateAndClock?_eq_some {d : Date} {c : Clock} {i : Instant}
    (h : ofDateAndClock? d c = some i) :
    c.isValid = true ∧ i.nanos = d.dayNumber * day + c.sinceMidnight := by
  rw [ofDateAndClock?] at h
  split at h
  next hvalid => exact ⟨(Bool.and_eq_true _ _ ▸ hvalid).2, ofNanos?_eq_some_iff.1 h⟩
  next => cases h

/-- The midnight of a date is the beginning of the day of all instants of the date. -/
theorem nanos_midnight {d : Date} {c : Clock} {i j : Instant} (hi : ofDateAndClock? d c = some i)
    (hj : ofDateAndClock? d .midnight = some j) : j.nanos = i.nanos / day * day := by
  obtain ⟨hclock, hnanos⟩ := ofDateAndClock?_eq_some hi
  obtain ⟨-, hmidnight⟩ := ofDateAndClock?_eq_some hj
  have hlt := Clock.sinceMidnight_lt hclock
  have hzero : Clock.midnight.sinceMidnight = 0 := rfl
  rw [hmidnight, hnanos, hzero, day_eq]
  omega

/-- The nanoseconds of the second are the last part of the time of day. -/
theorem nanos_clock (i : Instant) : i.clock.nanos = i.subseconds := by
  simp only [clock, Clock.ofNanos, subseconds, day_eq, second_eq]
  omega

theorem earliest_le_milli (i : Instant) : earliest ≤ i.nanos / milli * milli := by
  have hle := i.earliest_le
  have hearliest : earliest = earliest / milli * milli := by decide
  rw [milli_eq] at *
  omega

/-- The instant without the parts of its millisecond. -/
def toMilli (i : Instant) : Instant where
  nanos := i.nanos / milli * milli
  earliest_le := i.earliest_le_milli
  le_latest := Int.le_trans (Int.ediv_mul_le _ (by decide)) i.le_latest

/-- Only the part of the time of day below the millisecond is dropped. -/
theorem date_toMilli (i : Instant) : i.toMilli.date = i.date := by
  have hday : i.nanos / milli * milli / day = i.nanos / day := by
    rw [milli_eq, day_eq]
    omega
  rw [date, toMilli, hday]
  rfl

theorem clock_toMilli (i : Instant) :
    i.toMilli.clock = { i.clock with nanos := i.clock.nanos / 1000000 * 1000000 } := by
  simp only [clock, toMilli, Clock.ofNanos, Clock.mk.injEq, milli_eq, day_eq]
  omega

variable {i j : Instant}

/-- Instants do not change places when the parts of a millisecond are dropped. -/
theorem toMilli_le (h : i.le j = true) : i.toMilli.le j.toMilli = true := by
  rw [le_iff] at h ⊢
  simp only [toMilli, milli_eq]
  omega

end Instant

end Time

end CoverageAccess
