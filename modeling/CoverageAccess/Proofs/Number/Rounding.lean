import Mathlib.Algebra.Order.Field.Power
import Mathlib.Data.Nat.Log
import Mathlib.Data.Rat.Cast.Order
import Mathlib.Tactic.FieldSimp
import Mathlib.Tactic.Linarith
import Mathlib.Tactic.NormNum
import Mathlib.Tactic.Positivity
import Mathlib.Tactic.Ring
/-!
# Rounding to the nearest number

A rational `v` rounds to `m · 2 ^ q` if it lies between the points half way to the two neighbours of
that number; the ends count if `m` is even, and below the least significand of an exponent the
neighbour is nearer (`RoundsTo`). The main result, `roundWithAccuracy_eq`, says that core's rounding
finds this number from any sufficiently precise approximation of `v` from below.

Core keeps what it has shifted out of a significand as an accuracy. `Rest` says which fractions an
accuracy stands for, and `halved` what a shift makes of it, so no proof follows the shifts bit by
bit.
-/

namespace CoverageAccess

namespace Number

open Float.Model Float.Model.UnpackedFloat

/-- Significands and exponents of the finite numbers of 64 bits other than zero. -/
structure Canonical (m : Nat) (q : Int) : Prop where
  pos : 0 < m
  lt : m < 2 ^ 53
  least : -1074 ≤ q
  full : q = -1074 ∨ 2 ^ 52 ≤ m

/-- The nearest natural number to `x` is `n`; half way between two, the even one. -/
structure IsNearest (x : ℚ) (n : Nat) : Prop where
  low : (n : ℚ) - 1 / 2 ≤ x
  high : x ≤ n + 1 / 2
  even : (x = n - 1 / 2 ∨ x = n + 1 / 2) → n % 2 = 0

/-- The rational rounds to `m · 2 ^ q`. -/
structure RoundsTo (v : ℚ) (m : Nat) (q : Int) : Prop where
  nearest : IsNearest (v / 2 ^ q) m
  /-- Below the least significand the numbers lie closer. -/
  lower : -1074 < q → m = 2 ^ 52 → (m : ℚ) - 1 / 4 ≤ v / 2 ^ q

section Accuracy

/-- The fractions that an accuracy stands for. -/
inductive Rest : Accuracy → ℚ → Prop
  | exact : Rest .exact 0
  | low {f : ℚ} (h : 0 < f) (h' : f < 1 / 2) : Rest (.inexact .lt) f
  | half : Rest (.inexact .eq) (1 / 2)
  | high {f : ℚ} (h : 1 / 2 < f) (h' : f < 1) : Rest (.inexact .gt) f

/-- The accuracy after one more bit has been shifted out. -/
def halved (bit : Bool) : Accuracy → Accuracy
  | .exact => if bit then .inexact .eq else .exact
  | .inexact _ => if bit then .inexact .gt else .inexact .lt

variable {a : Accuracy} {f : ℚ}

theorem Rest.nonneg (h : Rest a f) : 0 ≤ f := by
  cases h <;> linarith

theorem Rest.lt_one (h : Rest a f) : f < 1 := by
  cases h <;> linarith

theorem Rest.halved_false (h : Rest a f) : Rest (halved false a) (f / 2) := by
  cases h with
  | exact =>
      rw [zero_div]
      exact .exact
  | low h h' => exact .low (by linarith) (by linarith)
  | half => exact .low (by norm_num) (by norm_num)
  | high h h' => exact .low (by linarith) (by linarith)

theorem Rest.halved_true (h : Rest a f) : Rest (halved true a) ((1 + f) / 2) := by
  cases h with
  | exact =>
      rw [add_zero]
      exact .half
  | low h h' => exact .high (by linarith) (by linarith)
  | half => exact .high (by norm_num) (by norm_num)
  | high h h' => exact .high (by linarith) (by linarith)

theorem Rest.roundToNearestEven_eq {k n : Nat} (h : Rest a f) (hn : IsNearest (k + f) n) :
    a.roundToNearestEven k = n := by
  obtain ⟨hlow, hhigh, heven⟩ := hn
  cases h with
  | exact =>
      have h1 : (n : ℚ) < (k + 1 : ℕ) := by push_cast; linarith
      have h2 : (k : ℚ) < (n + 1 : ℕ) := by push_cast; linarith
      change k = n
      have := Nat.cast_lt.1 h1
      have := Nat.cast_lt.1 h2
      omega
  | low hf hf' =>
      have h1 : (n : ℚ) < (k + 1 : ℕ) := by push_cast; linarith
      have h2 : (k : ℚ) < (n + 1 : ℕ) := by push_cast; linarith
      change k = n
      have := Nat.cast_lt.1 h1
      have := Nat.cast_lt.1 h2
      omega
  | half =>
      have h1 : (n : ℚ) ≤ (k + 1 : ℕ) := by push_cast; linarith
      have h2 : (k : ℚ) ≤ (n : ℕ) := by linarith
      change k + k % 2 = n
      rcases Nat.eq_or_lt_of_le (Nat.cast_le.1 h2) with rfl | hlt
      · have := heven (.inr rfl)
        omega
      · have hk : n = k + 1 := by
          have := Nat.cast_le.1 h1
          omega
        subst hk
        have := heven (.inl (by push_cast; ring))
        omega
  | high hf hf' =>
      have h1 : (n : ℚ) < (k + 2 : ℕ) := by push_cast; linarith
      have h2 : (k : ℚ) < (n : ℕ) := by linarith
      change k + 1 = n
      have := Nat.cast_lt.1 h1
      have := Nat.cast_lt.1 h2
      omega

/-- A shift halves what a significand and its residual bits stand for. -/
theorem accuracy_shiftRightOne (em : ExtendedMantissa) :
    em.shiftRightOne.accuracy = halved (em.mantissa % 2 != 0) em.accuracy := by
  obtain ⟨n, round, sticky⟩ := em
  cases hbit : (n % 2 != 0) <;> cases round <;> cases sticky <;>
    simp [ExtendedMantissa.shiftRightOne, ExtendedMantissa.accuracy, halved, hbit]

/-- The significand with its residual bits stands for `x`. -/
def Represents (em : ExtendedMantissa) (x : ℚ) : Prop :=
  Rest em.accuracy (x - em.mantissa)

theorem Represents.shiftRightOne {em : ExtendedMantissa} {x : ℚ} (h : Represents em x) :
    Represents em.shiftRightOne (x / 2) := by
  have hdiv : (em.mantissa : ℚ) = 2 * (em.mantissa / 2 : ℕ) + (em.mantissa % 2 : ℕ) := by
    exact_mod_cast (Nat.div_add_mod em.mantissa 2).symm
  rw [Represents, accuracy_shiftRightOne]
  rcases Nat.mod_two_eq_zero_or_one em.mantissa with hmod | hmod
  · rw [hmod] at hdiv ⊢
    have hx : x / 2 - (em.shiftRightOne.mantissa : ℚ) = (x - em.mantissa) / 2 := by
      rw [hdiv]
      change x / 2 - ((em.mantissa / 2 : ℕ) : ℚ) = _
      push_cast
      ring
    rw [hx]
    exact h.halved_false
  · rw [hmod] at hdiv ⊢
    have hx : x / 2 - (em.shiftRightOne.mantissa : ℚ) = (1 + (x - em.mantissa)) / 2 := by
      rw [hdiv]
      change x / 2 - ((em.mantissa / 2 : ℕ) : ℚ) = _
      push_cast
      ring
    rw [hx]
    exact h.halved_true

theorem Represents.shiftRight {em : ExtendedMantissa} {x : ℚ} (h : Represents em x) (n : Nat) :
    Represents (em >>> n) (x / 2 ^ n) := by
  change Represents (n.repeat ExtendedMantissa.shiftRightOne em) _
  induction n with
  | zero => simpa [Nat.repeat] using h
  | succ n ih =>
      rw [Nat.repeat, pow_succ, ← div_div]
      exact ih.shiftRightOne

theorem represents_ofMantissaAndAccuracy {n : Nat} (h : Rest a f) :
    Represents (.ofMantissaAndAccuracy n a) (n + f) := by
  have hmantissa : (ExtendedMantissa.ofMantissaAndAccuracy n a).mantissa = n := by
    cases h <;> rfl
  have haccuracy : (ExtendedMantissa.ofMantissaAndAccuracy n a).accuracy = a := by
    cases h <;> rfl
  rw [Represents, hmantissa, haccuracy, add_sub_cancel_left]
  exact h

theorem Represents.roundedMantissa_eq {em : ExtendedMantissa} {x : ℚ} {n : Nat}
    (h : Represents em x) (hn : IsNearest x n) : em.roundedMantissa = n := by
  refine Rest.roundToNearestEven_eq h ?_
  rwa [add_sub_cancel]

end Accuracy

section Exponents

variable {n m : Nat} {e q : Int} {v f : ℚ} {a : Accuracy}

theorem two_zpow_pos (e : Int) : (0 : ℚ) < 2 ^ e :=
  zpow_pos (by norm_num) e

theorem lt_of_two_zpow_lt {i j : Int} (h : (2 : ℚ) ^ i < 2 ^ j) : i < j :=
  (zpow_lt_zpow_iff_right₀ (by norm_num)).1 h

theorem two_zpow_le {i j : Int} (h : i ≤ j) : (2 : ℚ) ^ i ≤ 2 ^ j :=
  zpow_le_zpow_right₀ (by norm_num) h

theorem two_zpow_add (i j : Int) : (2 : ℚ) ^ (i + j) = 2 ^ i * 2 ^ j :=
  zpow_add₀ (by norm_num) i j

theorem targetExponent_eq (n : Nat) (e : Int) :
    Format.binary64.targetExponent (totalExponent n e) = max (n.log2 + e - 52) (-1074) := by
  change max (n.log2 + 1 + e - 53 : Int) (-1074) = _
  omega

theorem two_zpow_log2_le (hn : n ≠ 0) (hv : v = (n + f) * 2 ^ e) (hf : 0 ≤ f) (hf' : f < 1) :
    (2 : ℚ) ^ (n.log2 + e : Int) ≤ v ∧ v < 2 ^ (n.log2 + e + 1 : Int) := by
  have hlow : (2 ^ n.log2 : ℚ) ≤ n := by exact_mod_cast Nat.log2_self_le hn
  have hhigh : (n + 1 : ℚ) ≤ 2 ^ (n.log2 + 1) := by exact_mod_cast Nat.lt_log2_self (n := n)
  have hpos := two_zpow_pos e
  rw [hv, add_right_comm, two_zpow_add, two_zpow_add]
  constructor
  · rw [zpow_natCast]
    exact mul_le_mul_of_nonneg_right (by linarith) hpos.le
  · have hcast : (2 : ℚ) ^ ((n.log2 : Int) + 1) = 2 ^ (n.log2 + 1) := by
      exact_mod_cast zpow_natCast (2 : ℚ) (n.log2 + 1)
    rw [hcast]
    exact mul_lt_mul_of_pos_right (by linarith) hpos

/-- What rounds to a number is less than the number of the next exponent. -/
theorem RoundsTo.lt_two_zpow (hc : Canonical m q) (h : RoundsTo v m q) : v < 2 ^ (q + 53) := by
  have hm : (m : ℚ) + 1 ≤ 2 ^ 53 := by exact_mod_cast hc.lt
  have hy := h.nearest.high
  rw [div_le_iff₀ (two_zpow_pos q)] at hy
  have hlt : ((m : ℚ) + 1 / 2) * 2 ^ q < 2 ^ 53 * 2 ^ q :=
    mul_lt_mul_of_pos_right (by linarith) (two_zpow_pos q)
  rw [add_comm q 53, two_zpow_add]
  exact lt_of_le_of_lt hy hlt

/-- What rounds to a number with full significand is at least the number of its exponent, or rounds
to the least significand from below. -/
theorem RoundsTo.two_zpow_le_or (h : RoundsTo v m q) (hq : -1074 < q) (hm : 2 ^ 52 ≤ m) :
    (2 : ℚ) ^ (q + 52) ≤ v ∨ m = 2 ^ 52 ∧ v < 2 ^ (q + 52) ∧ (2 : ℚ) ^ (q + 51) < v := by
  have hpos := two_zpow_pos q
  rw [add_comm q 52, add_comm q 51, two_zpow_add, two_zpow_add]
  rcases Nat.eq_or_lt_of_le hm with hm | hm
  · rcases lt_or_ge v (2 ^ (52 : Int) * 2 ^ q) with hv | hv
    · refine .inr ⟨hm.symm, hv, ?_⟩
      have hy := h.lower hq hm.symm
      rw [le_div_iff₀ hpos, ← hm] at hy
      refine lt_of_lt_of_le ?_ hy
      refine mul_lt_mul_of_pos_right ?_ hpos
      norm_num
    · exact .inl hv
  · left
    have hy := h.nearest.low
    rw [le_div_iff₀ hpos] at hy
    refine le_trans ?_ hy
    have hcast : ((2 ^ 52 + 1 : ℕ) : ℚ) ≤ m := Nat.cast_le.2 hm
    push_cast at hcast
    refine mul_le_mul_of_nonneg_right ?_ hpos.le
    calc (2 : ℚ) ^ (52 : Int) = 2 ^ 52 := by norm_num
      _ ≤ m - 1 / 2 := by linarith

/-- What is less than the least number can only round to one of the least exponent. -/
theorem eq_least_of_roundsTo (hc : Canonical m q) (h : RoundsTo v m q)
    (hv : v < 2 ^ (-1074 : Int)) : q = -1074 := by
  rcases hc.full with hq | hm
  · exact hq
  · by_contra hne
    have hq : -1074 < q := lt_of_le_of_ne hc.least (Ne.symm hne)
    rcases h.two_zpow_le_or hq hm with hlow | ⟨-, -, hlow⟩
    · have := lt_of_two_zpow_lt (lt_of_le_of_lt hlow hv)
      omega
    · have := lt_of_two_zpow_lt (hlow.trans hv)
      omega

/-- Rounding aims at the exponent of the number, or at the one below it if it comes to the least
significand from below. -/
theorem targetExponent_of_roundsTo (hc : Canonical m q) (h : RoundsTo v m q)
    (hv : v = (n + f) * 2 ^ e) (hf : Rest a f)
    (he : e ≤ Format.binary64.targetExponent (totalExponent n e)) :
    Format.binary64.targetExponent (totalExponent n e) = q ∨
      Format.binary64.targetExponent (totalExponent n e) = q - 1 ∧ -1074 < q ∧ m = 2 ^ 52 ∧
        v < 2 ^ (q + 52) := by
  rw [targetExponent_eq] at he ⊢
  have hleast := hc.least
  have hhigh := h.lt_two_zpow hc
  rcases Nat.eq_zero_or_pos n with rfl | hn
  · left
    simp only [Nat.log2_zero, Nat.cast_zero, zero_add] at he hv ⊢
    have hsmall : v < 2 ^ (-1074 : Int) := by
      have hle := two_zpow_le (show e ≤ -1074 by omega)
      rw [hv]
      have := hf.lt_one
      have := hf.nonneg
      nlinarith [two_zpow_pos e]
    have hq := eq_least_of_roundsTo hc h hsmall
    omega
  · obtain ⟨hlog, hlog'⟩ := two_zpow_log2_le hn.ne' hv hf.nonneg hf.lt_one
    have htop := lt_of_two_zpow_lt (lt_of_le_of_lt hlog hhigh)
    rcases hc.full with hq | hm
    · left
      omega
    · rcases eq_or_lt_of_le hleast with hq | hq
      · left
        omega
      · rcases h.two_zpow_le_or hq hm with hlow | ⟨hm, hlt, hlow⟩
        · have := lt_of_two_zpow_lt (lt_of_le_of_lt hlow hlog')
          left
          omega
        · have := lt_of_two_zpow_lt (hlow.trans hlog')
          have := lt_of_two_zpow_lt (lt_of_le_of_lt hlog hlt)
          right
          refine ⟨by omega, hq, hm, hlt⟩

theorem log2_eq_of_full (h : m < 2 ^ 53) (h' : 2 ^ 52 ≤ m) : m.log2 = 52 := by
  have hm : m ≠ 0 := by omega
  have hlow := (Nat.le_log2 hm).2 h'
  have hhigh := (Nat.log2_lt hm).2 h
  omega

theorem shiftToTargetExponent_canonical (hc : Canonical m q) :
    shiftToTargetExponent Format.binary64 m q .exact = (⟨m, false, false⟩, q) := by
  have htarget : Format.binary64.targetExponent (totalExponent m q) = q := by
    rw [targetExponent_eq]
    rcases Nat.lt_or_ge m (2 ^ 52) with hm | hm
    · have hlog := (Nat.log2_lt hc.pos.ne').2 hm
      have hq := hc.full.resolve_right (by omega)
      omega
    · have hlog := log2_eq_of_full hc.lt hm
      have := hc.least
      omega
  rw [shiftToTargetExponent, htarget]
  simp [shiftToExponent, HShiftRight.hShiftRight, Nat.repeat,
    ExtendedMantissa.ofMantissaAndAccuracy]

/-- A significand that rounding has made too long becomes the least one of the next exponent. -/
theorem shiftToTargetExponent_carry (hq : -1074 < q) :
    shiftToTargetExponent Format.binary64 (2 ^ 53) (q - 1) .exact =
      (⟨2 ^ 52, false, false⟩, q) := by
  have htarget : Format.binary64.targetExponent (totalExponent (2 ^ 53) (q - 1)) = q := by
    rw [targetExponent_eq, Nat.log2_two_pow]
    omega
  have hshift : (q - (q - 1)).toNat = 1 := by omega
  rw [shiftToTargetExponent, htarget]
  rw [shiftToExponent, hshift]
  simp [HShiftRight.hShiftRight, Nat.repeat,
    ExtendedMantissa.ofMantissaAndAccuracy, ExtendedMantissa.shiftRightOne]

/-- Shifted to the exponent that rounding aims at, the significand stands for the rational there. -/
theorem exists_represents {t : Int} (hv : v = (n + f) * 2 ^ e) (hf : Rest a f)
    (ht : Format.binary64.targetExponent (totalExponent n e) = t) (he : e ≤ t) :
    ∃ em, shiftToTargetExponent Format.binary64 n e a = (em, t) ∧ Represents em (v / 2 ^ t) := by
  have hk : e + ((t - e).toNat : Int) = t := by omega
  refine ⟨ExtendedMantissa.ofMantissaAndAccuracy n a >>> (t - e).toNat, ?_, ?_⟩
  · rw [shiftToTargetExponent, ht, shiftToExponent, hk]
  · have hpow : (2 : ℚ) ^ t = 2 ^ e * 2 ^ (t - e).toNat := by
      rw [← zpow_natCast, ← two_zpow_add, hk]
    have hx : v / 2 ^ t = (n + f) / 2 ^ (t - e).toNat := by
      rw [hv, hpow, mul_comm ((n : ℚ) + f), mul_div_mul_left _ _ (two_zpow_pos e).ne']
    rw [hx]
    exact (represents_ofMantissaAndAccuracy hf).shiftRight _

/-- What comes to the least significand from below is nearest to it one exponent lower, too. -/
theorem RoundsTo.isNearest_below (h : RoundsTo v (2 ^ 52) q) (hq : -1074 < q)
    (hlt : v < 2 ^ (q + 52)) : IsNearest (v / 2 ^ (q - 1)) (2 ^ 53) := by
  have hy := h.lower hq rfl
  have htwice : v / 2 ^ (q - 1) = 2 * (v / 2 ^ q) := by
    rw [zpow_sub_one₀ (by norm_num : (2 : ℚ) ≠ 0)]
    have := (two_zpow_pos q).ne'
    field_simp
  have hbelow : v / 2 ^ q < 2 ^ 52 := by
    rw [div_lt_iff₀ (two_zpow_pos q)]
    rwa [add_comm, two_zpow_add] at hlt
  rw [htwice]
  refine ⟨?_, ?_, fun _ => by norm_num⟩ <;> push_cast at hy ⊢ <;> linarith

/-- Core's rounding finds the number that a rational rounds to, if it is given the rational from
below with an exponent that is not too large. -/
theorem roundWithAccuracy_eq (hc : Canonical m q) (h : RoundsTo v m q) (hv : v = (n + f) * 2 ^ e)
    (hf : Rest a f) (he : e ≤ Format.binary64.targetExponent (totalExponent n e)) (s : Sign) :
    roundWithAccuracy Format.binary64 s n e a = .finite s m q hc.pos := by
  rcases targetExponent_of_roundsTo hc h hv hf he with ht | ⟨ht, hq, hm, hlt⟩
  · obtain ⟨em, hem, hrep⟩ := exists_represents hv hf ht (ht ▸ he)
    have hm := hrep.roundedMantissa_eq h.nearest
    rw [roundWithAccuracy, hem]
    dsimp only
    rw [hm, shiftToTargetExponent_canonical hc]
    exact dif_neg hc.pos.ne'
  · obtain ⟨em, hem, hrep⟩ := exists_represents hv hf ht (ht ▸ he)
    subst hm
    have hm := hrep.roundedMantissa_eq (h.isNearest_below hq hlt)
    rw [roundWithAccuracy, hem]
    dsimp only
    rw [hm, shiftToTargetExponent_carry hq]
    exact dif_neg hc.pos.ne'

end Exponents

end Number

end CoverageAccess
