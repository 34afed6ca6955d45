import CoverageAccess.Proofs.Number.Packed
/-!
# Numbers from decimals

Core reads a decimal by multiplying or dividing two numbers that it holds exactly, and rounds once.
So it finds the number that the decimal rounds to (`ofScaled_eq`), on its fast path, where both
factors are numbers of 64 bits, as well as on the slow one.
-/

namespace CoverageAccess

namespace Number

open Float.Model Float.Model.UnpackedFloat

variable {m m₁ m₂ : Nat} {q e₁ e₂ : Int}

/-- A product is rounded once, and has the product of the signs. -/
theorem mul_eq (s₁ s₂ : Sign) (h₁ : 0 < m₁) (h₂ : 0 < m₂) (hc : Canonical m q)
    (h : RoundsTo (m₁ * 2 ^ e₁ * (m₂ * 2 ^ e₂)) m q)
    (he : e₁ + e₂ ≤ Format.binary64.targetExponent (totalExponent (m₁ * m₂) (e₁ + e₂))) :
    UnpackedFloat.mul Format.binary64 (.finite s₁ m₁ e₁ h₁) (.finite s₂ m₂ e₂ h₂) =
      .finite (s₁ * s₂) m q hc.pos := by
  refine roundWithAccuracy_eq hc h ?_ .exact he (s₁ * s₂)
  rw [two_zpow_add]
  push_cast
  ring

theorem rest_accuracyOfFraction {a b : Nat} (h : a < b) :
    Rest (accuracyOfFraction a b) ((a : ℚ) / b) := by
  have hb : (0 : ℚ) < b := by exact_mod_cast (Nat.zero_le a).trans_lt h
  have hlt : (a : ℚ) < b := by exact_mod_cast h
  unfold accuracyOfFraction
  split
  next ha =>
    rw [ha, Nat.cast_zero, zero_div]
    exact .exact
  next ha =>
    have hpos : (0 : ℚ) < a := by exact_mod_cast Nat.pos_of_ne_zero ha
    have hone : (a : ℚ) / b < 1 := (div_lt_one hb).2 hlt
    rcases Nat.lt_trichotomy (2 * a) b with hc | hc | hc
    · rw [Nat.compare_eq_lt.2 hc]
      have hcast : 2 * (a : ℚ) < b := by exact_mod_cast hc
      refine .low (div_pos hpos hb) ?_
      rw [div_lt_iff₀ hb]
      linarith
    · rw [Nat.compare_eq_eq.2 hc]
      have hcast : 2 * (a : ℚ) = b := by exact_mod_cast hc
      have hhalf : (a : ℚ) / b = 1 / 2 := by
        rw [div_eq_iff hb.ne']
        linarith
      rw [hhalf]
      exact .half
    · rw [Nat.compare_eq_gt.2 hc]
      have hcast : (b : ℚ) < 2 * a := by exact_mod_cast hc
      refine .high ?_ hone
      rw [lt_div_iff₀ hb]
      linarith

/-- A dividend that has been shifted far enough has a quotient of 53 bits. -/
theorem two_pow_le_shifted_div (h₁ : 0 < m₁) (h₂ : 0 < m₂) {k : Nat}
    (hk : 53 + m₂.log2 ≤ m₁.log2 + k) : 2 ^ 52 ≤ m₁ * 2 ^ k / m₂ := by
  rw [Nat.le_div_iff_mul_le h₂]
  calc 2 ^ 52 * m₂ ≤ 2 ^ 52 * 2 ^ (m₂.log2 + 1) := Nat.mul_le_mul_left _ Nat.lt_log2_self.le
    _ = 2 ^ (52 + (m₂.log2 + 1)) := (pow_add 2 _ _).symm
    _ ≤ 2 ^ (m₁.log2 + k) := Nat.pow_le_pow_right (by norm_num) (by omega)
    _ = 2 ^ m₁.log2 * 2 ^ k := pow_add 2 _ _
    _ ≤ m₁ * 2 ^ k := Nat.mul_le_mul_right _ (Nat.log2_self_le h₁.ne')

/-- A quotient is the whole part of the division and a fraction. -/
theorem cast_div_add_mod (a : Nat) {b : Nat} (hb : 0 < b) :
    ((a / b : ℕ) : ℚ) + ((a % b : ℕ) : ℚ) / b = a / b := by
  have hpos : (0 : ℚ) < b := by exact_mod_cast hb
  have hcast : (b : ℚ) * (a / b : ℕ) + (a % b : ℕ) = a := by exact_mod_cast Nat.div_add_mod a b
  rw [eq_div_iff hpos.ne', add_mul, div_mul_cancel₀ _ hpos.ne']
  linarith

/-- A quotient is rounded once. -/
theorem div_eq (h₁ : 0 < m₁) (h₂ : 0 < m₂) (hc : Canonical m q)
    (h : RoundsTo (m₁ * 2 ^ e₁ / (m₂ * 2 ^ e₂)) m q) :
    UnpackedFloat.div Format.binary64 (.finite .positive m₁ e₁ h₁) (.finite .positive m₂ e₂ h₂) =
      .finite .positive m q hc.pos := by
  obtain ⟨t, ht⟩ : ∃ t, t = min (e₁ - e₂)
      (Format.binary64.targetExponent (totalExponent m₁ e₁ - totalExponent m₂ e₂)) := ⟨_, rfl⟩
  obtain ⟨k, hk⟩ : ∃ k : Nat, k = (e₁ - e₂ - t).toNat := ⟨_, rfl⟩
  have hkt : (k : Int) = e₁ - e₂ - t := by omega
  change (let (m, e, acc) := divCore Format.binary64 m₁ e₁ m₂ e₂
    roundWithAccuracy Format.binary64 .positive m e acc) = _
  have hcore : divCore Format.binary64 m₁ e₁ m₂ e₂ =
      (m₁ * 2 ^ k / m₂, t, accuracyOfFraction (m₁ * 2 ^ k % m₂) m₂) := by
    rw [divCore, ← ht, ← hk, Nat.shiftLeft_eq]
  rw [hcore]
  refine roundWithAccuracy_eq hc h ?_ (rest_accuracyOfFraction (Nat.mod_lt _ h₂)) ?_ .positive
  · have hexponent : e₁ = k + t + e₂ := by omega
    have he₂ := (two_zpow_pos e₂).ne'
    rw [cast_div_add_mod _ h₂, hexponent, two_zpow_add, two_zpow_add, zpow_natCast]
    push_cast
    field_simp
  · rw [targetExponent_eq]
    by_cases hlow : t ≤ -1074
    · exact le_max_of_le_right hlow
    · refine le_max_of_le_left ?_
      have htarget : t ≤ (m₁.log2 + 1 + e₁ - (m₂.log2 + 1 + e₂) - 53 : Int) := by
        have hmax : t ≤ max (m₁.log2 + 1 + e₁ - (m₂.log2 + 1 + e₂) - 53 : Int) (-1074) :=
          ht.trans_le (min_le_right _ _)
        omega
      have hlarge := two_pow_le_shifted_div h₁ h₂ (show 53 + m₂.log2 ≤ m₁.log2 + k by omega)
      have hlog := (Nat.le_log2 (by omega)).2 hlarge
      omega

theorem roundsTo_self (m : Nat) (q : Int) : RoundsTo (m * 2 ^ q) m q := by
  have hself : (m : ℚ) * 2 ^ q / 2 ^ q = m := mul_div_cancel_right₀ _ (two_zpow_pos q).ne'
  constructor
  · rw [hself]
    refine ⟨by linarith, by linarith, ?_⟩
    rintro (h | h) <;> linarith
  · intro _ _
    rw [hself]
    linarith

/-- A natural number of 53 bits is converted exactly, to a full significand. -/
theorem exists_ofNat_eq {n : Nat} (hn : n ≠ 0) (hlt : n < 2 ^ 53) :
    ∃ m q, ∃ hc : Canonical m q, q ≤ 971 ∧ 2 ^ 52 ≤ m ∧ (n : ℚ) = m * 2 ^ q ∧
      UnpackedFloat.ofNat Format.binary64 n = .finite .positive m q hc.pos := by
  have hlog := (Nat.log2_lt hn).2 hlt
  obtain ⟨j, hj⟩ : ∃ j, j = 52 - n.log2 := ⟨_, rfl⟩
  have hfull : 2 ^ 52 ≤ n * 2 ^ j := by
    calc 2 ^ 52 = 2 ^ n.log2 * 2 ^ j := by rw [← pow_add, hj]; congr 1; omega
      _ ≤ n * 2 ^ j := Nat.mul_le_mul_right _ (Nat.log2_self_le hn)
  have hbound : n * 2 ^ j < 2 ^ 53 := by
    calc n * 2 ^ j < 2 ^ (n.log2 + 1) * 2 ^ j :=
          Nat.mul_lt_mul_of_pos_right Nat.lt_log2_self (by positivity)
      _ = 2 ^ 53 := by rw [← pow_add, hj]; congr 1; omega
  have hc : Canonical (n * 2 ^ j) (-j) := ⟨by omega, hbound, by omega, .inr hfull⟩
  have htarget : Format.binary64.targetExponent (totalExponent n 0) = -j := by
    rw [targetExponent_eq]
    omega
  have hvalue : (n : ℚ) = (n * 2 ^ j : ℕ) * 2 ^ (-j : Int) := by
    rw [zpow_neg, zpow_natCast]
    push_cast
    field_simp
  have hpositive : compare (n : Int) 0 = .gt := compare_gt_iff_gt.2 (by omega)
  have hround : UnpackedFloat.ofNat Format.binary64 n =
      roundWithAccuracy Format.binary64 .positive (n * 2 ^ j) (-j) .exact := by
    rw [UnpackedFloat.ofNat, UnpackedFloat.ofInt, UnpackedFloat.normalize, hpositive]
    dsimp only
    rw [UnpackedFloat.round, Int.toNat_natCast, htarget, decreaseExponent]
    simp [Nat.shiftLeft_eq]
  refine ⟨n * 2 ^ j, -j, hc, by omega, hfull, hvalue, ?_⟩
  rw [hround]
  refine roundWithAccuracy_eq hc (roundsTo_self _ _) (by rw [add_zero]) .exact ?_ .positive
  rw [targetExponent_eq, log2_eq_of_full hbound hfull]
  omega

/-- The powers of ten on core's fast path are exact, and their significands are full. -/
theorem parts_powersOfTen : ∀ e : Fin 23,
    let x := Float.exactlyRepresentablePowersOfTen[e]
    x.isFinite = true ∧ 0 < x ∧ 2 ^ 52 ≤ (parts x).1 ∧
      (parts x).1 * 2 ^ (parts x).2.toNat = 10 ^ e.val * 2 ^ (-(parts x).2).toNat := by
  decide +kernel

theorem zpow_mul_pow_toNat {b : ℚ} (hb : b ≠ 0) (e : Int) :
    b ^ e * b ^ (-e).toNat = b ^ e.toNat := by
  rw [← zpow_natCast, ← zpow_natCast, ← zpow_add₀ hb]
  congr 1
  omega

/-- A power of ten on core's fast path is a number with a full significand. -/
theorem exists_powerOfTen {e : Nat} (he : e ≤ 22)
    {h : e < Float.exactlyRepresentablePowersOfTen.size} :
    ∃ m q, ∃ hc : Canonical m q, q ≤ 971 ∧ 2 ^ 52 ≤ m ∧ (m : ℚ) * 2 ^ q = 10 ^ e ∧
      Float.exactlyRepresentablePowersOfTen[e] = ofCanonical hc := by
  obtain ⟨hfinite, hpos, hfull, hvalue⟩ := parts_powersOfTen ⟨e, by omega⟩
  obtain ⟨-, hc, hq, heq⟩ := exists_canonical hfinite hpos
  refine ⟨_, _, hc, hq, hfull, ?_, heq⟩
  have hcast : ((parts Float.exactlyRepresentablePowersOfTen[e]).1 : ℚ) *
      2 ^ (parts Float.exactlyRepresentablePowersOfTen[e]).2.toNat =
        10 ^ e * 2 ^ (-(parts Float.exactlyRepresentablePowersOfTen[e]).2).toNat := by
    exact_mod_cast hvalue
  rw [← zpow_mul_pow_toNat two_ne_zero, ← mul_assoc] at hcast
  exact mul_right_cancel₀ (by positivity) hcast

/-- The product of two full significands is rounded once. -/
theorem mul_eq_of_full (s₁ s₂ : Sign) (hm₁ : 2 ^ 52 ≤ m₁) (hm₂ : 2 ^ 52 ≤ m₂) (h₁ : 0 < m₁)
    (h₂ : 0 < m₂) (hc : Canonical m q) (h : RoundsTo (m₁ * 2 ^ e₁ * (m₂ * 2 ^ e₂)) m q) :
    UnpackedFloat.mul Format.binary64 (.finite s₁ m₁ e₁ h₁) (.finite s₂ m₂ e₂ h₂) =
      .finite (s₁ * s₂) m q hc.pos := by
  have hlog : 104 ≤ (m₁ * m₂).log2 := by
    rw [Nat.le_log2 (by positivity)]
    calc 2 ^ 104 = 2 ^ 52 * 2 ^ 52 := by norm_num
      _ ≤ m₁ * m₂ := Nat.mul_le_mul hm₁ hm₂
  refine mul_eq s₁ s₂ h₁ h₂ hc h ?_
  rw [targetExponent_eq]
  omega

section Products

variable {hc₁ : Canonical m₁ e₁} {hc₂ : Canonical m₂ e₂}

theorem ofCanonical_mul (hc : Canonical m q) (he₁ : e₁ ≤ 971) (he₂ : e₂ ≤ 971)
    (hm₁ : 2 ^ 52 ≤ m₁) (hm₂ : 2 ^ 52 ≤ m₂)
    (h : RoundsTo (m₁ * 2 ^ e₁ * (m₂ * 2 ^ e₂)) m q) :
    ofCanonical hc₁ * ofCanonical hc₂ = ofCanonical hc := by
  have hproduct := mul_eq_of_full .positive .positive hm₁ hm₂ hc₁.pos hc₂.pos hc h
  rw [← unpack_ofCanonical hc₁ he₁, ← unpack_ofCanonical hc₂ he₂] at hproduct
  exact congrArg (fun x => Float.ofModel (.pack x)) hproduct

theorem ofCanonical_div (hc : Canonical m q) (he₁ : e₁ ≤ 971) (he₂ : e₂ ≤ 971)
    (h : RoundsTo (m₁ * 2 ^ e₁ / (m₂ * 2 ^ e₂)) m q) :
    ofCanonical hc₁ / ofCanonical hc₂ = ofCanonical hc := by
  have hquotient := div_eq hc₁.pos hc₂.pos hc h
  rw [← unpack_ofCanonical hc₁ he₁, ← unpack_ofCanonical hc₂ he₂] at hquotient
  exact congrArg (fun x => Float.ofModel (.pack x)) hquotient

end Products

theorem RoundsTo.two_zpow_lt {v : ℚ} (hc : Canonical m q) (h : RoundsTo v m q) :
    (2 : ℚ) ^ (-1076 : Int) < v := by
  have hlow := h.nearest.low
  have hm : (1 : ℚ) ≤ m := by exact_mod_cast hc.pos
  rw [le_div_iff₀ (two_zpow_pos q)] at hlow
  refine lt_of_lt_of_le ?_ hlow
  have hhalf : (2 : ℚ) ^ (-1 : Int) * 2 ^ (-1074 : Int) ≤ (m - 1 / 2) * 2 ^ q := by
    refine mul_le_mul ?_ (two_zpow_le hc.least) (two_zpow_pos _).le (by linarith)
    rw [zpow_neg_one]
    linarith
  refine lt_of_lt_of_le ?_ hhalf
  rw [← two_zpow_add]
  exact (zpow_lt_zpow_iff_right₀ (by norm_num)).2 (by norm_num)

theorem two_zpow_le_ten_zpow {k : Int} (hk : 0 ≤ k) : (2 : ℚ) ^ k ≤ 10 ^ k :=
  zpow_le_zpow_left₀ hk (by norm_num) (by norm_num)

section Scale

variable {n : Nat} {k : Int}

/-- Core's slow path looks at the scale first; that of a decimal that rounds to a number is neither
too large nor too small. -/
theorem RoundsTo.scale_le (hc : Canonical m q) (hq : q ≤ 971) (hn : n ≠ 0)
    (h : RoundsTo (n * 10 ^ k) m q) : k ≤ 2 ^ 11 := by
  by_contra hk
  have hone : (1 : ℚ) ≤ n := by exact_mod_cast Nat.pos_of_ne_zero hn
  have hle : (2 : ℚ) ^ k ≤ n * 10 ^ k := by
    refine (two_zpow_le_ten_zpow (by omega)).trans ?_
    exact le_mul_of_one_le_left (by positivity) hone
  have := lt_of_two_zpow_lt (hle.trans_lt (h.lt_two_zpow hc))
  omega

theorem RoundsTo.le_scale (hc : Canonical m q) (h : RoundsTo (n * 10 ^ k) m q) :
    -((2 ^ 11 : Int) + n.log2) ≤ k := by
  by_contra hk
  have hlog : (n : ℚ) < 2 ^ (n.log2 + 1) := by exact_mod_cast Nat.lt_log2_self (n := n)
  have hpower : (10 : ℚ) ^ k ≤ 2 ^ k := by
    rw [← neg_neg k, zpow_neg, zpow_neg 2]
    exact inv_anti₀ (two_zpow_pos _) (two_zpow_le_ten_zpow (by omega))
  have hlt : (n : ℚ) * 10 ^ k < 2 ^ (n.log2 + 1 + k : Int) := by
    rw [two_zpow_add]
    refine mul_lt_mul ?_ hpower (by positivity) (two_zpow_pos _).le
    exact_mod_cast hlog
  have := lt_of_two_zpow_lt ((h.two_zpow_lt hc).trans hlt)
  omega

end Scale

/-- Core's slow path rounds once as well. -/
theorem unpackedOfScientific_eq {n : Nat} {k : Int} (hc : Canonical m q) (hq : q ≤ 971)
    (hn : n ≠ 0) (h : RoundsTo (n * 10 ^ k) m q) :
    UnpackedFloat.ofScientific Format.binary64 n k = .finite .positive m q hc.pos := by
  have hnotLarge : ¬k > 2 ^ 11 := (h.scale_le hc hq hn).not_gt
  have hnotSmall : ¬k < -((2 ^ 11 : Int) + n.log2) := (h.le_scale hc).not_gt
  rw [UnpackedFloat.ofScientific, dif_neg hn, if_neg hnotLarge, if_neg hnotSmall]
  by_cases hk : 0 ≤ k
  · rw [if_pos hk]
    obtain ⟨j, rfl⟩ := Int.eq_ofNat_of_zero_le hk
    have hlarge : 2 ^ 52 ≤ n * 2 ^ 53 * 10 ^ j := by
      have hten : 1 ≤ 10 ^ j := Nat.one_le_pow _ _ (by norm_num)
      have hpos := Nat.pos_of_ne_zero hn
      nlinarith
    have hlog := (Nat.le_log2 (by omega)).2 hlarge
    change UnpackedFloat.mul Format.binary64 (.finite .positive (n <<< 53) (-53) _)
      (.finite .positive (10 ^ j) 0 _) = _
    refine mul_eq .positive .positive _ _ hc ?_ ?_
    · have hvalue : ((n <<< 53 : ℕ) : ℚ) * 2 ^ (-53 : Int) * ((10 ^ j : ℕ) * 2 ^ (0 : Int)) =
          n * 10 ^ (j : Int) := by
        rw [Nat.shiftLeft_eq, zpow_natCast, zpow_zero]
        push_cast
        norm_num
        ring
      rw [hvalue]
      exact h
    · rw [targetExponent_eq, Nat.shiftLeft_eq]
      omega
  · rw [if_neg hk]
    obtain ⟨j, hj⟩ : ∃ j : Nat, k = -j := ⟨(-k).toNat, by omega⟩
    subst hj
    refine div_eq _ _ hc ?_
    have hvalue : (n : ℚ) * 2 ^ (0 : Int) / ((10 ^ (-(-(j : Int))).toNat : ℕ) * 2 ^ (0 : Int)) =
        n * 10 ^ (-(j : Int)) := by
      rw [neg_neg, Int.toNat_natCast, zpow_zero, zpow_neg, zpow_natCast, mul_one, mul_one,
        div_eq_mul_inv]
      push_cast
      rfl
    rw [hvalue]
    exact h

/-- A natural number of 53 bits is converted exactly, also by way of 64 bits. -/
theorem toFloat_eq {n : Nat} (hc : Canonical m q) (hlt : n < 2 ^ 53)
    (h : UnpackedFloat.ofNat Format.binary64 n = .finite .positive m q hc.pos) :
    n.toUInt64.toFloat = ofCanonical hc := by
  have hn : n.toUInt64.toNat = n := UInt64.toNat_ofNat_of_lt' (by
    change n < 2 ^ 64
    omega)
  have hsame : UnpackedFloat.ofNat Format.binary64 n.toUInt64.toNat =
      .finite .positive m q hc.pos := by rw [hn, h]
  exact congrArg (fun x => Float.ofModel (.pack x)) hsame

/-- Core reads a decimal as the number that it rounds to. -/
theorem ofScaled_eq {n : Nat} {k : Int} (hc : Canonical m q) (hq : q ≤ 971) (hn : n ≠ 0)
    (h : RoundsTo (n * 10 ^ k) m q) : ofScaled n k = ofCanonical hc := by
  have hslow := congrArg (fun x => Float.ofModel (.pack x)) (unpackedOfScientific_eq hc hq hn h)
  cases k with
  | ofNat k =>
      change Float.ofScientific n false k = _
      unfold Float.ofScientific
      split
      next hfast =>
        obtain ⟨m₁, q₁, hc₁, hq₁, hm₁, hv₁, heq₁⟩ := exists_ofNat_eq hn hfast.1
        obtain ⟨m₂, q₂, hc₂, hq₂, hm₂, hv₂, heq₂⟩ := exists_powerOfTen hfast.2
        dsimp only
        rw [heq₂, toFloat_eq hc₁ hfast.1 heq₁]
        refine ofCanonical_mul hc hq₁ hq₂ hm₁ hm₂ ?_
        rw [← hv₁, hv₂]
        exact h
      next => exact hslow
  | negSucc k =>
      change Float.ofScientific n true (k + 1) = _
      unfold Float.ofScientific
      split
      next hfast =>
        obtain ⟨m₁, q₁, hc₁, hq₁, hm₁, hv₁, heq₁⟩ := exists_ofNat_eq hn hfast.1
        obtain ⟨m₂, q₂, hc₂, hq₂, hm₂, hv₂, heq₂⟩ := exists_powerOfTen hfast.2
        dsimp only
        rw [heq₂, toFloat_eq hc₁ hfast.1 heq₁]
        refine ofCanonical_div hc hq₁ hq₂ ?_
        rw [← hv₁, hv₂, div_eq_mul_inv]
        rwa [zpow_negSucc] at h
      next => exact hslow

end Number

end CoverageAccess
