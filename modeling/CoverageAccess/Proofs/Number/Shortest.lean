import CoverageAccess.Proofs.Number.Scientific
/-!
# Shortest decimals

The shortest decimal of a number rounds to it (`roundsTo_shortest`). The search takes only decimals
of the interval that rounds to the number, and it ends: among the decimals of seventeen digits one
lies in the interval, because the estimate of the number of digits is never too great
(`ten_zpow_magnitude_le`).
-/

namespace CoverageAccess

namespace Number

variable {m : Nat} {q : Int}

/-- The value of a decimal. -/
def Decimal.value (d : Decimal) : ℚ :=
  d.digits * 10 ^ d.exponent

theorem ten_zpow_pos (k : Int) : (0 : ℚ) < 10 ^ k :=
  zpow_pos (by norm_num) k

section Comparison

variable {a d : Nat} {p k : Int}

/-- The common unit that both sides of a comparison are brought to. -/
theorem cast_scaled (a d : Nat) (p k : Int) :
    ∃ c : ℚ, 0 < c ∧
      ((a * 2 ^ p.toNat * 10 ^ (-k).toNat : ℕ) : ℚ) = a * 2 ^ p * c ∧
      ((d * 10 ^ k.toNat * 2 ^ (-p).toNat : ℕ) : ℚ) = d * 10 ^ k * c := by
  refine ⟨2 ^ (-p).toNat * 10 ^ (-k).toNat, by positivity, ?_, ?_⟩
  · push_cast
    rw [← zpow_mul_pow_toNat two_ne_zero p]
    ring
  · push_cast
    rw [← zpow_mul_pow_toNat (by norm_num : (10 : ℚ) ≠ 0) k]
    ring

theorem compareScaled_eq_lt :
    compareScaled a p d k = .lt ↔ (a : ℚ) * 2 ^ p < d * 10 ^ k := by
  obtain ⟨c, hc, hleft, hright⟩ := cast_scaled a d p k
  rw [← mul_lt_mul_iff_left₀ hc, ← hleft, ← hright, Nat.cast_lt]
  exact Nat.compare_eq_lt

theorem compareScaled_eq_gt :
    compareScaled a p d k = .gt ↔ (d : ℚ) * 10 ^ k < a * 2 ^ p := by
  obtain ⟨c, hc, hleft, hright⟩ := cast_scaled a d p k
  rw [← mul_lt_mul_iff_left₀ hc, ← hleft, ← hright, Nat.cast_lt]
  exact Nat.compare_eq_gt

theorem floorScaled_bounds (a : Nat) (p k : Int) :
    (floorScaled a p k : ℚ) * 10 ^ k ≤ a * 2 ^ p ∧
      (a : ℚ) * 2 ^ p < (floorScaled a p k + 1 : ℕ) * 10 ^ k := by
  have hfloor : floorScaled a p k =
      a * 2 ^ p.toNat * 10 ^ (-k).toNat / (10 ^ k.toNat * 2 ^ (-p).toNat) := rfl
  obtain ⟨n, hn⟩ : ∃ n, n = floorScaled a p k := ⟨_, rfl⟩
  rw [← hn] at hfloor ⊢
  have hpos : 0 < 10 ^ k.toNat * 2 ^ (-p).toNat := by positivity
  constructor
  · obtain ⟨c, hc, hleft, hright⟩ := cast_scaled a n p k
    rw [← mul_le_mul_iff_left₀ hc, ← hleft, ← hright, Nat.cast_le, mul_assoc, hfloor]
    exact Nat.div_mul_le_self _ _
  · obtain ⟨c, hc, hleft, hright⟩ := cast_scaled a (n + 1) p k
    rw [← mul_lt_mul_iff_left₀ hc, ← hleft, ← hright, Nat.cast_lt, mul_assoc (n + 1),
      ← Nat.div_lt_iff_lt_mul hpos, ← hfloor]
    exact Nat.lt_succ_self n

end Comparison

namespace Interval

variable {i : Interval} {d : Nat} {k : Int}

theorem bounds_of_holds (h : i.holds d k = true) :
    (i.low : ℚ) * 2 ^ i.unit ≤ d * 10 ^ k ∧ (d : ℚ) * 10 ^ k ≤ i.high * 2 ^ i.unit ∧
      (i.closed = false →
        (i.low : ℚ) * 2 ^ i.unit < d * 10 ^ k ∧ (d : ℚ) * 10 ^ k < i.high * 2 ^ i.unit) := by
  unfold holds at h
  dsimp only at h
  split at h
  next hclosed =>
    obtain ⟨hlow, hhigh⟩ := Bool.and_eq_true_iff.1 h
    rw [bne_iff_ne] at hlow hhigh
    refine ⟨not_lt.1 (mt compareScaled_eq_gt.2 hlow), not_lt.1 (mt compareScaled_eq_lt.2 hhigh),
      fun hopen => ?_⟩
    rw [hclosed] at hopen
    cases hopen
  next =>
    obtain ⟨hlow, hhigh⟩ := Bool.and_eq_true_iff.1 h
    have hlow := compareScaled_eq_lt.1 (beq_iff_eq.1 hlow)
    have hhigh := compareScaled_eq_gt.1 (beq_iff_eq.1 hhigh)
    exact ⟨hlow.le, hhigh.le, fun _ => ⟨hlow, hhigh⟩⟩

theorem holds_of_lt (hlow : (i.low : ℚ) * 2 ^ i.unit < d * 10 ^ k)
    (hhigh : (d : ℚ) * 10 ^ k < i.high * 2 ^ i.unit) : i.holds d k = true := by
  have hlt := compareScaled_eq_lt.2 hlow
  have hgt := compareScaled_eq_gt.2 hhigh
  unfold holds
  rw [hlt, hgt]
  split <;> rfl

theorem holds_of_onGrid? (h : i.onGrid? k = some d) : i.holds d k = true := by
  unfold onGrid? at h
  dsimp only at h
  split at h
  next => cases h
  next hfloor _ => rwa [← Option.some.inj h]
  next _ hnext => rwa [← Option.some.inj h]
  next hfloor hnext =>
    split at h
    next => rwa [← Option.some.inj h]
    next => rwa [← Option.some.inj h]

/-- The grid has a point in the interval if one of its two points around the middle is in it. -/
theorem exists_onGrid? (h : i.holds (floorScaled i.middle i.unit k) k = true ∨
    i.holds (floorScaled i.middle i.unit k + 1) k = true) : ∃ d, i.onGrid? k = some d := by
  unfold onGrid?
  dsimp only
  rcases h with h | h
  · rw [h]
    split
    next hnone _ => cases hnone
    next => exact ⟨_, rfl⟩
    next hnone _ => cases hnone
    next => split <;> exact ⟨_, rfl⟩
  · rw [h]
    split
    next hnone => cases hnone
    next hnone => cases hnone
    next => exact ⟨_, rfl⟩
    next => split <;> exact ⟨_, rfl⟩

/-- The unit of the interval around a number is a quarter of the number's own. -/
theorem around_unit (m : Nat) (q : Int) : (2 : ℚ) ^ (around m q).unit = 2 ^ q / 4 := by
  change (2 : ℚ) ^ (q - 2) = _
  rw [zpow_sub₀ two_ne_zero]
  norm_num

theorem around_middle (m : Nat) (q : Int) :
    ((around m q).middle : ℚ) * 2 ^ (around m q).unit = m * 2 ^ q := by
  rw [around_unit]
  change ((4 * m : ℕ) : ℚ) * _ = _
  push_cast
  ring

theorem around_high (m : Nat) (q : Int) :
    ((around m q).high : ℚ) * 2 ^ (around m q).unit = (m + 1 / 2) * 2 ^ q := by
  rw [around_unit]
  change ((4 * m + 2 : ℕ) : ℚ) * _ = _
  push_cast
  ring

theorem around_low (hm : 0 < m) (q : Int) :
    ((around m q).low : ℚ) * 2 ^ (around m q).unit =
      (m - if m = 2 ^ 52 ∧ -1074 < q then 1 / 4 else 1 / 2) * 2 ^ q := by
  rw [around_unit]
  change ((4 * m - (if m = 2 ^ 52 ∧ -1074 < q then 1 else 2) : ℕ) : ℚ) * _ = _
  split
  · rw [Nat.cast_sub (by omega)]
    push_cast
    ring
  · rw [Nat.cast_sub (by omega)]
    push_cast
    ring

/-- The decimals in the interval round to the number. -/
theorem roundsTo_of_holds (hm : 0 < m) (h : (around m q).holds d k = true) :
    RoundsTo (d * 10 ^ k) m q := by
  obtain ⟨hlow, hhigh, hopen⟩ := bounds_of_holds h
  rw [around_low hm, ← le_div_iff₀ (two_zpow_pos q)] at hlow
  rw [around_high, ← div_le_iff₀ (two_zpow_pos q)] at hhigh
  rw [around_low hm, around_high, ← lt_div_iff₀ (two_zpow_pos q),
    ← div_lt_iff₀ (two_zpow_pos q)] at hopen
  have heven : (around m q).closed = decide (m % 2 = 0) := rfl
  refine ⟨⟨?_, hhigh, fun hend => ?_⟩, fun hq hleast => ?_⟩
  · split at hlow <;> linarith
  · by_contra hodd
    rw [heven, decide_eq_false hodd] at hopen
    obtain ⟨hlow, hhigh⟩ := hopen rfl
    rcases hend with hend | hend
    · split at hlow <;> linarith
    · linarith
  · rwa [if_pos ⟨hleast, hq⟩] at hlow

end Interval

section Magnitude

/-- Powers of ten below powers of two: `10 ^ 3 ≤ 2 ^ 10` serves the exponents from zero on, and
`2 ^ 93 ≤ 10 ^ 28` the negative ones. -/
theorem ten_zpow_le_two_zpow {k l : Int} (h : 10 * k ≤ 3 * l) (h' : 93 * k ≤ 28 * l) :
    (10 : ℚ) ^ k ≤ 2 ^ l := by
  have hten : (1 : ℚ) ≤ 10 := by norm_num
  rcases le_or_gt 0 l with hl | hl
  · obtain ⟨n, rfl⟩ := Int.eq_ofNat_of_zero_le hl
    have hpower : ((10 : ℚ) ^ k) ^ 10 ≤ (2 ^ (n : Int)) ^ 10 := by
      calc ((10 : ℚ) ^ k) ^ 10 = 10 ^ (10 * k) := by rw [← zpow_natCast, ← zpow_mul, mul_comm]; rfl
        _ ≤ 10 ^ (3 * n : Int) := zpow_le_zpow_right₀ hten h
        _ = (10 ^ 3) ^ n := by rw [← pow_mul]; exact_mod_cast zpow_natCast (10 : ℚ) (3 * n)
        _ ≤ (2 ^ 10) ^ n := pow_le_pow_left₀ (by norm_num) (by norm_num) n
        _ = (2 ^ (n : Int)) ^ 10 := by rw [zpow_natCast, ← pow_mul, ← pow_mul, mul_comm]
    exact le_of_pow_le_pow_left₀ (by norm_num) (two_zpow_pos _).le hpower
  · obtain ⟨n, hn⟩ : ∃ n : Nat, l = -n := ⟨(-l).toNat, by omega⟩
    subst hn
    have hpower : ((2 : ℚ) ^ n) ^ 93 ≤ (10 ^ (-k)) ^ 93 := by
      calc ((2 : ℚ) ^ n) ^ 93 = (2 ^ 93) ^ n := by rw [← pow_mul, ← pow_mul, mul_comm]
        _ ≤ (10 ^ 28) ^ n := pow_le_pow_left₀ (by norm_num) (by norm_num) n
        _ = 10 ^ (28 * n : Int) := by
            rw [← pow_mul]
            exact_mod_cast (zpow_natCast (10 : ℚ) (28 * n)).symm
        _ ≤ 10 ^ (93 * -k) := zpow_le_zpow_right₀ hten (by omega)
        _ = (10 ^ (-k)) ^ 93 := by rw [← zpow_natCast, ← zpow_mul, mul_comm]; rfl
    have hroot := le_of_pow_le_pow_left₀ (by norm_num) (ten_zpow_pos _).le hpower
    rw [zpow_neg, ← inv_inv ((10 : ℚ) ^ k), ← zpow_neg, zpow_natCast]
    exact inv_anti₀ (by positivity) hroot

/-- The number of digits is never overestimated. -/
theorem ten_zpow_magnitude_le {a : Nat} {p : Int} (ha : a ≠ 0)
    (hlow : -1100 ≤ (a.log2 : Int) + p) (hhigh : (a.log2 : Int) + p ≤ 1100) :
    (10 : ℚ) ^ (magnitude a p - 1) ≤ a * 2 ^ p := by
  unfold magnitude
  dsimp only
  -- What the search for the number of digits preserves.
  refine List.foldlRecOn (motive := fun k : Int => (10 : ℚ) ^ (k - 1) ≤ a * 2 ^ p) _ _ ?_ ?_
  · have hlog : (2 : ℚ) ^ ((a.log2 : Int) + p) ≤ a * 2 ^ p := by
      rw [two_zpow_add, zpow_natCast]
      refine mul_le_mul_of_nonneg_right ?_ (two_zpow_pos p).le
      exact_mod_cast Nat.log2_self_le ha
    refine le_trans (ten_zpow_le_two_zpow ?_ ?_) hlog
    · rw [Int.fdiv_eq_ediv_of_nonneg _ (by norm_num)]
      omega
    · rw [Int.fdiv_eq_ediv_of_nonneg _ (by norm_num)]
      omega
  · intro k hk _ _
    split
    next => exact hk
    next hge =>
      rw [beq_iff_eq, compareScaled_eq_lt, not_lt, Nat.cast_one, one_mul] at hge
      rwa [add_sub_cancel_right]

end Magnitude

/-- Among the decimals of seventeen digits one rounds to the number. -/
theorem exists_onGrid?_around (hc : Canonical m q) {k : Int}
    (hk : (10 : ℚ) ^ (k + 16) ≤ m * 2 ^ q) : ∃ d, (Interval.around m q).onGrid? k = some d := by
  apply Interval.exists_onGrid?
  obtain ⟨hfloor, hnext⟩ := floorScaled_bounds (Interval.around m q).middle
    (Interval.around m q).unit k
  rw [Interval.around_middle] at hfloor hnext
  have hlow := Interval.around_low hc.pos q
  have hhigh := Interval.around_high m q
  generalize floorScaled (Interval.around m q).middle (Interval.around m q).unit k = d at *
  have hunit := two_zpow_pos q
  rw [zpow_add₀ (by norm_num)] at hk
  by_cases hleast : m = 2 ^ 52 ∧ -1074 < q
  · -- The lower end is near, but the next point of the grid is not far.
    rw [if_pos hleast] at hlow
    have hm : (m : ℚ) = 2 ^ 52 := by exact_mod_cast hleast.1
    rw [hm] at hk hfloor hnext hlow hhigh
    right
    refine Interval.holds_of_lt ?_ ?_
    · rw [hlow]
      linarith
    · rw [hhigh]
      push_cast
      norm_num at hk hfloor ⊢
      linarith
  · rw [if_neg hleast] at hlow
    have hm : (m : ℚ) ≤ 2 ^ 53 := by exact_mod_cast hc.lt.le
    have hbound : (m : ℚ) * 2 ^ q ≤ 2 ^ 53 * 2 ^ q := mul_le_mul_of_nonneg_right hm hunit.le
    by_cases hnear : (m : ℚ) * 2 ^ q - d * 10 ^ k < 2 ^ q / 2
    · left
      refine Interval.holds_of_lt ?_ ?_
      · rw [hlow]
        linarith
      · rw [hhigh]
        linarith
    · right
      refine Interval.holds_of_lt ?_ ?_
      · rw [hlow]
        linarith
      · rw [hhigh]
        push_cast
        norm_num at hk
        linarith

theorem Decimal.value_reduce_go (fuel n : Nat) (k : Int) :
    (Decimal.reduce.go fuel n k).value = n * 10 ^ k := by
  induction fuel generalizing n k with
  | zero => rfl
  | succ fuel ih =>
      rw [Decimal.reduce.go]
      split
      next hzero =>
        have hn : (n : ℚ) = 10 * (n / 10 : ℕ) := by
          exact_mod_cast (Nat.mul_div_cancel' (Nat.dvd_of_mod_eq_zero hzero)).symm
        rw [ih, zpow_add_one₀ (by norm_num), hn]
        ring
      next => rfl

theorem Decimal.value_reduce (d : Decimal) : d.reduce.value = d.value := by
  unfold Decimal.reduce
  split
  next => rfl
  next => exact Decimal.value_reduce_go _ _ _

/-- The shortest decimal of a number rounds to it. -/
theorem roundsTo_shortest (hc : Canonical m q) (hq : q ≤ 971) :
    RoundsTo (shortest m q).value m q := by
  unfold shortest
  dsimp only
  rw [Decimal.value_reduce]
  have hlog : (4 * m).log2 = m.log2 + 2 := by
    have hpos := hc.pos
    have hfour : 4 * m = 2 * (2 * m) := by omega
    rw [hfour, Nat.log2_two_mul (by omega), Nat.log2_two_mul (by omega)]
  have hsize := (Nat.log2_lt hc.pos.ne').2 hc.lt
  have hleast := hc.least
  have htop := ten_zpow_magnitude_le (a := (Interval.around m q).middle)
    (p := (Interval.around m q).unit) (Nat.mul_ne_zero (by norm_num) hc.pos.ne')
    (by change -1100 ≤ ((4 * m).log2 : Int) + (q - 2); omega)
    (by change ((4 * m).log2 : Int) + (q - 2) ≤ 1100; omega)
  generalize magnitude (Interval.around m q).middle (Interval.around m q).unit = top at *
  rw [Interval.around_middle] at htop
  cases hfound : (List.range 17).findSome? fun n : Nat =>
      ((Interval.around m q).onGrid? (top - (n + 1))).map fun d =>
        (⟨d, top - (n + 1)⟩ : Decimal) with
  | none =>
      have hplaces : top - 17 + 16 = top - 1 := by omega
      obtain ⟨d, hd⟩ := exists_onGrid?_around hc (k := top - 17) (by rwa [hplaces])
      have hlast := List.findSome?_eq_none_iff.1 hfound 16 (by decide)
      change ((Interval.around m q).onGrid? (top - 17)).map _ = none at hlast
      rw [hd] at hlast
      cases hlast
  | some found =>
      obtain ⟨n, -, hn⟩ := List.exists_of_findSome?_eq_some hfound
      obtain ⟨d, hd, rfl⟩ := Option.map_eq_some_iff.1 hn
      exact Interval.roundsTo_of_holds hc.pos (Interval.holds_of_onGrid? hd)

end Number

end CoverageAccess
