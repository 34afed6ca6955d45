import CoverageAccess.Number.Real
import CoverageAccess.Proofs.Number.Rounding
/-!
# Numbers and their bits

The bits of a positive finite number, read as a natural number, hold the biased exponent above the
fraction. So such a number is given by the significand and the exponent that `parts` reads
(`exists_canonical`), and core unpacks exactly these (`unpack_ofCanonical`).
-/

namespace CoverageAccess

namespace Number

open Float.Model Float.Model.UnpackedFloat

variable {m : Nat} {q : Int}

/-- The positive number of a significand and an exponent. -/
def ofCanonical (hc : Canonical m q) : Float :=
  .ofModel (.pack (.finite .positive m q hc.pos))

/-- The bits of a positive number: the exponent of a full significand is biased, and its leading bit
is left out. -/
def bitsOf (m : Nat) (q : Int) : Nat :=
  if 2 ^ 52 ≤ m then (q + 1075).toNat * 2 ^ 52 + (m - 2 ^ 52) else m

section Bits

theorem toNat_packComponents (s : Sign) (e : BitVec 11) (n : BitVec 52) :
    (packComponents Format.binary64 s e n).toNat =
      s.toBitVec.toNat * 2 ^ 63 + e.toNat * 2 ^ 52 + n.toNat := by
  have he := e.isLt
  have hn := n.isLt
  rw [packComponents, BitVec.toNat_append, BitVec.toNat_append,
    ← Nat.shiftLeft_add_eq_or_of_lt he, ← Nat.shiftLeft_add_eq_or_of_lt hn, Nat.shiftLeft_eq,
    Nat.shiftLeft_eq]
  ring

theorem toNat_unpackExponent (b : BitVec 64) :
    (@unpackExponent Format.binary64 b).toNat = b.toNat / 2 ^ 52 % 2 ^ 11 := by
  change (b.extractLsb 62 52).toNat = _
  rw [BitVec.extractLsb_toNat, Nat.shiftRight_eq_div_pow]

theorem toNat_unpackMantissa (b : BitVec 64) :
    (@unpackMantissa Format.binary64 b).toNat = b.toNat % 2 ^ 52 := by
  change (b.extractLsb 51 0).toNat = _
  rw [BitVec.extractLsb_toNat, Nat.shiftRight_zero]

theorem toNat_unpackSign (b : BitVec 64) :
    (@unpackSign Format.binary64 b).toNat = b.toNat / 2 ^ 63 := by
  have hb := b.isLt
  change (b.extractLsb 63 63).toNat = _
  rw [BitVec.extractLsb_toNat, Nat.shiftRight_eq_div_pow]
  omega

theorem toNat_pack (hc : Canonical m q) (hq : q ≤ 971) :
    (UnpackedFloat.pack Format.binary64 (.finite .positive m q hc.pos)).toNat = bitsOf m q := by
  have hlt := hc.lt
  have hleast := hc.least
  have hsmall : ¬2 ^ 11 ≤ (q + 1023 + 52).toNat + 1 := by omega
  change (if 2 ^ 11 ≤ (q + 1023 + 52).toNat + 1 then packedInfinity Format.binary64 .positive
    else if m.log2 + 1 = 53 then packComponents Format.binary64 .positive
      (BitVec.ofNat 11 (q + 1023 + 52).toNat) (BitVec.ofNat 52 m)
    else packComponents Format.binary64 .positive 0#11 (BitVec.ofNat 52 m)).toNat = _
  rw [if_neg hsmall, bitsOf]
  rcases Nat.lt_or_ge m (2 ^ 52) with hm | hm
  · have hlog := (Nat.log2_lt hc.pos.ne').2 hm
    rw [if_neg (by omega), if_neg (by omega), toNat_packComponents]
    change 0 * 2 ^ 63 + 0 * 2 ^ 52 + m % 2 ^ 52 = m
    omega
  · rw [if_pos (by rw [log2_eq_of_full hlt hm]), if_pos hm, toNat_packComponents]
    change 0 * 2 ^ 63 + (q + 1023 + 52).toNat % 2 ^ 11 * 2 ^ 52 + m % 2 ^ 52 = _
    omega

theorem finite_congr {s s' : Sign} {m m' : Nat} {q q' : Int} {h : 0 < m} {h' : 0 < m'}
    (hs : s = s') (hm : m = m') (hq : q = q') :
    UnpackedFloat.finite s m q h = .finite s' m' q' h' := by
  subst hs hm hq
  rfl

theorem toNat_eq_zero_iff {w : Nat} {b : BitVec w} : b = 0#w ↔ b.toNat = 0 := by
  rw [← BitVec.toNat_inj, BitVec.toNat_ofNat, Nat.zero_mod]

theorem toNat_one_append (n : BitVec 52) : (1#1 ++ n).toNat = 2 ^ 52 + n.toNat := by
  rw [BitVec.toNat_append, ← Nat.shiftLeft_add_eq_or_of_lt n.isLt]
  rfl

theorem unpack_eq (b : BitVec 64) :
    UnpackedFloat.unpack Format.binary64 b =
      if @unpackExponent Format.binary64 b = -1#11 then
        if @unpackMantissa Format.binary64 b = 0#52 then
          .infinity (.ofBitVec (@unpackSign Format.binary64 b))
        else .notANumber
      else if @unpackExponent Format.binary64 b = 0#11 then
        if h : @unpackMantissa Format.binary64 b = 0#52 then
          .zero (.ofBitVec (@unpackSign Format.binary64 b))
        else
          .finite (.ofBitVec (@unpackSign Format.binary64 b))
            (@unpackMantissa Format.binary64 b).toNat
            ((@unpackExponent Format.binary64 b).toNat - 1075 + 1)
            (Nat.pos_of_ne_zero (mt toNat_eq_zero_iff.2 h))
      else
        .finite (.ofBitVec (@unpackSign Format.binary64 b))
          (1#1 ++ @unpackMantissa Format.binary64 b).toNat
          ((@unpackExponent Format.binary64 b).toNat - 1075) (by rw [toNat_one_append]; omega) :=
  rfl

/-- Core unpacks the significand and the exponent of a positive number. -/
theorem unpack_of_toNat {b : BitVec 64} (hc : Canonical m q) (hq : q ≤ 971)
    (hb : b.toNat = bitsOf m q) :
    UnpackedFloat.unpack Format.binary64 b = .finite .positive m q hc.pos := by
  have hpos := hc.pos
  have hlt := hc.lt
  have hleast := hc.least
  have hsign : Sign.ofBitVec (@unpackSign Format.binary64 b) = .positive := by
    have hzero : (@unpackSign Format.binary64 b).toNat = 0 := by
      rw [toNat_unpackSign, hb, bitsOf]
      split <;> omega
    rw [toNat_eq_zero_iff.2 hzero]
    rfl
  have hexponent : (@unpackExponent Format.binary64 b).toNat =
      if 2 ^ 52 ≤ m then (q + 1075).toNat else 0 := by
    rw [toNat_unpackExponent, hb, bitsOf]
    split <;> omega
  have hmantissa : (@unpackMantissa Format.binary64 b).toNat = m % 2 ^ 52 := by
    rw [toNat_unpackMantissa, hb, bitsOf]
    split <;> omega
  have hlast : (@unpackExponent Format.binary64 b) ≠ -1#11 := by
    intro h
    rw [h] at hexponent
    change 2047 = _ at hexponent
    split at hexponent <;> omega
  rw [unpack_eq, if_neg hlast]
  rcases Nat.lt_or_ge m (2 ^ 52) with hm | hm
  · rw [if_neg (by omega)] at hexponent
    have hne : ¬(@unpackMantissa Format.binary64 b) = 0#52 := by
      rw [toNat_eq_zero_iff]
      omega
    have hfull := hc.full
    rw [if_pos (toNat_eq_zero_iff.2 hexponent), dif_neg hne]
    exact finite_congr hsign (by omega) (by rw [hexponent]; omega)
  · rw [if_pos hm] at hexponent
    have hne : ¬(@unpackExponent Format.binary64 b) = 0#11 := by
      rw [toNat_eq_zero_iff]
      omega
    have happend : (1#1 ++ @unpackMantissa Format.binary64 b).toNat = m := by
      rw [toNat_one_append, hmantissa]
      omega
    rw [if_neg hne]
    exact finite_congr hsign happend (by rw [hexponent]; omega)

end Bits

theorem unpack_ofCanonical (hc : Canonical m q) (hq : q ≤ 971) :
    (ofCanonical hc).toModel.unpack = .finite .positive m q hc.pos :=
  unpack_of_toNat hc hq (toNat_pack hc hq)

theorem eq_ofCanonical_of_toNat {x : Float} (hc : Canonical m q) (hq : q ≤ 971)
    (hx : x.toBits.toNat = bitsOf m q) : x = ofCanonical hc := by
  obtain ⟨⟨bits, valid⟩⟩ := x
  have hbits : bits = UInt64.ofBitVec (UnpackedFloat.pack Format.binary64
      (.finite .positive m q hc.pos)) :=
    UInt64.toNat_inj.1 (hx.trans (toNat_pack hc hq).symm)
  subst hbits
  rfl

/-- What a positive finite number is unpacked to, in terms of its bits. -/
theorem bits_of_pos {b : BitVec 64} (hfinite : (UnpackedFloat.unpack Format.binary64 b).isFinite)
    (hpos : UnpackedFloat.lt (.zero .positive) (UnpackedFloat.unpack Format.binary64 b) = true) :
    (@unpackExponent Format.binary64 b).toNat ≠ 2047 ∧ (@unpackSign Format.binary64 b).toNat = 0 ∧
      ((@unpackExponent Format.binary64 b).toNat = 0 →
        (@unpackMantissa Format.binary64 b).toNat ≠ 0) := by
  have hsign (v : BitVec 1) (m : Nat) (e : Int) (h : 0 < m)
      (hlt : UnpackedFloat.lt (.zero .positive) (.finite (Sign.ofBitVec v) m e h) = true) :
      v.toNat = 0 := by
    by_contra hv
    rw [Sign.ofBitVec, if_neg (mt toNat_eq_zero_iff.1 hv)] at hlt
    cases hlt
  rw [unpack_eq] at hfinite hpos
  have hlast : ¬@unpackExponent Format.binary64 b = -1#11 := by
    intro h
    rw [if_pos h] at hfinite
    split at hfinite <;> cases hfinite
  rw [if_neg hlast] at hpos
  refine ⟨fun h => hlast (BitVec.eq_of_toNat_eq h), ?_⟩
  by_cases hzero : @unpackExponent Format.binary64 b = 0#11
  · rw [if_pos hzero] at hpos
    by_cases hmantissa : @unpackMantissa Format.binary64 b = 0#52
    · rw [dif_pos hmantissa] at hpos
      cases hpos
    · rw [dif_neg hmantissa] at hpos
      exact ⟨hsign _ _ _ _ hpos, fun _ => mt toNat_eq_zero_iff.2 hmantissa⟩
  · rw [if_neg hzero] at hpos
    exact ⟨hsign _ _ _ _ hpos, fun h => absurd (toNat_eq_zero_iff.2 h) hzero⟩

theorem unpack_zero : (0 : Float).toModel.unpack = .zero .positive := rfl

theorem parts_eq (x : Float) : parts x =
    if x.toBits.toNat / 2 ^ 52 % 2048 = 0 then ((x.toBits.toNat % 2 ^ 52, -1074) : Nat × Int)
    else (2 ^ 52 + x.toBits.toNat % 2 ^ 52, (x.toBits.toNat / 2 ^ 52 % 2048 : Nat) - 1075) :=
  rfl

/-- A positive finite number is the one of its significand and its exponent. -/
theorem exists_canonical {x : Float} (hfinite : x.isFinite = true) (hpos : 0 < x) :
    isNegative x = false ∧
      ∃ hc : Canonical (parts x).1 (parts x).2, (parts x).2 ≤ 971 ∧ x = ofCanonical hc := by
  have hunpacked : UnpackedFloat.lt (.zero .positive) x.toModel.unpack = true := by
    rw [← unpack_zero]
    exact of_decide_eq_true hpos
  obtain ⟨hlast, hsign, hzero⟩ := bits_of_pos (b := x.toBits.toBitVec) hfinite hunpacked
  rw [toNat_unpackExponent] at hlast hzero
  rw [toNat_unpackSign] at hsign
  rw [toNat_unpackMantissa] at hzero
  change x.toBits.toNat / 2 ^ 52 % 2 ^ 11 ≠ 2047 at hlast
  change x.toBits.toNat / 2 ^ 63 = 0 at hsign
  change x.toBits.toNat / 2 ^ 52 % 2 ^ 11 = 0 → x.toBits.toNat % 2 ^ 52 ≠ 0 at hzero
  constructor
  · change decide (x.toBits.toNat / 2 ^ 63 = 1) = false
    rw [hsign]
    rfl
  · rw [parts_eq]
    split
    next he =>
      have hc : Canonical (x.toBits.toNat % 2 ^ 52) (-1074) :=
        ⟨by have := hzero he; omega, by omega, le_rfl, .inl rfl⟩
      refine ⟨hc, by norm_num, eq_ofCanonical_of_toNat hc (by norm_num) ?_⟩
      rw [bitsOf, if_neg (by omega)]
      omega
    next he =>
      have hc : Canonical (2 ^ 52 + x.toBits.toNat % 2 ^ 52)
          ((x.toBits.toNat / 2 ^ 52 % 2048 : Nat) - 1075) :=
        ⟨by omega, by omega, by omega, .inr (by omega)⟩
      refine ⟨hc, by dsimp only; omega, eq_ofCanonical_of_toNat hc (by omega) ?_⟩
      rw [bitsOf, if_pos (by omega)]
      omega

end Number

end CoverageAccess
