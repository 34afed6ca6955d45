import Mathlib
import CoverageAccess.Proofs.Number.Plain
import CoverageAccess.Proofs.Text.Split
/-!
# Numbers of either sign

The leading bit of a number is its sign, and the other bits are those of its opposite. So what holds
of the text of positive numbers carries over to negative ones; with the zeros and the infinities,
whose texts are words, every number but the NaN is read back from its plain text
(`real?_plain_of_isNaN`).
-/

namespace CoverageAccess

namespace Number

open Float.Model Float.Model.UnpackedFloat

variable {m : Nat} {q : Int} {x y : Float}

theorem unpack_eq_neg {b c : BitVec 64} (h : b.toNat = 2 ^ 63 + c.toNat) :
    UnpackedFloat.unpack Format.binary64 b = (UnpackedFloat.unpack Format.binary64 c).neg := by
  have hb := b.isLt
  have hminus : @unpackSign Format.binary64 b = 1#1 := by
    apply BitVec.eq_of_toNat_eq
    rw [toNat_unpackSign]
    change _ = 1
    omega
  have hplus : @unpackSign Format.binary64 c = 0#1 := by
    apply BitVec.eq_of_toNat_eq
    rw [toNat_unpackSign]
    change _ = 0
    omega
  have hexponent : @unpackExponent Format.binary64 b = @unpackExponent Format.binary64 c := by
    apply BitVec.eq_of_toNat_eq
    rw [toNat_unpackExponent, toNat_unpackExponent]
    omega
  have hmantissa : @unpackMantissa Format.binary64 b = @unpackMantissa Format.binary64 c := by
    apply BitVec.eq_of_toNat_eq
    rw [toNat_unpackMantissa, toNat_unpackMantissa]
    omega
  simp only [unpack_eq, hminus, hplus, hexponent, hmantissa]
  split
  · split <;> rfl
  · split
    · split <;> rfl
    · rfl

theorem toNat_pack_negative (h : 0 < m) :
    (UnpackedFloat.pack Format.binary64 (.finite .negative m q h)).toNat =
      2 ^ 63 + (UnpackedFloat.pack Format.binary64 (.finite .positive m q h)).toNat := by
  have hcomponents (e : BitVec 11) (n : BitVec 52) :
      (packComponents Format.binary64 .negative e n).toNat =
        2 ^ 63 + (packComponents Format.binary64 .positive e n).toNat := by
    rw [toNat_packComponents, toNat_packComponents]
    change 1 * 2 ^ 63 + _ + _ = 2 ^ 63 + (0 * 2 ^ 63 + _ + _)
    omega
  simp only [UnpackedFloat.pack]
  split
  · exact hcomponents _ _
  · split <;> exact hcomponents _ _

theorem eq_pack_unpack (x : Float) : x = .ofModel (.pack x.toModel.unpack) := by
  obtain ⟨⟨bits, valid⟩⟩ := x
  have hbits := UnpackedFloat.pack_unpack_of_valid valid
  simp [Float.Model.pack, Float.Model.unpack, hbits]

theorem pos_of_unpack {h : 0 < m} (hx : x.toModel.unpack = .finite .positive m q h) :
    x.isFinite = true ∧ 0 < x := by
  constructor
  · change x.toModel.unpack.isFinite = true
    rw [hx]
    rfl
  · change decide (UnpackedFloat.lt (0 : Float).toModel.unpack x.toModel.unpack = true) = true
    rw [hx, unpack_zero]
    rfl

/-- A number with a minus has the bits of its opposite after the sign. -/
theorem toNat_toBits_negative {h : 0 < m} (hx : x.toModel.unpack = .finite .negative m q h) :
    x.toBits.toNat = 2 ^ 63 + (-x).toBits.toNat := by
  have hbits := toNat_pack_negative (q := q) h
  have hself := congrArg (fun y : Float => y.toBits.toNat) (eq_pack_unpack x)
  have hneg : -x = .ofModel (.pack (.finite .positive m q h)) := by
    change Float.ofModel (.pack x.toModel.unpack.neg) = _
    rw [hx]
    rfl
  rw [hneg]
  rw [hx] at hself
  exact hself.trans hbits

theorem unpack_neg_of_negative {h : 0 < m} (hx : x.toModel.unpack = .finite .negative m q h) :
    (-x).toModel.unpack = .finite .positive m q h := by
  have hopposite : x.toModel.unpack = (-x).toModel.unpack.neg :=
    unpack_eq_neg (toNat_toBits_negative hx)
  rw [hx] at hopposite
  cases hunpack : (-x).toModel.unpack with
  | finite s m' q' h' =>
      rw [hunpack] at hopposite
      cases s with
      | negative => cases hopposite
      | positive =>
          obtain ⟨-, hm, hq⟩ := UnpackedFloat.finite.inj hopposite
          exact finite_congr rfl hm.symm hq.symm
  | _ =>
      rw [hunpack] at hopposite
      cases hopposite

theorem neg_neg_of_negative {h : 0 < m} (hx : x.toModel.unpack = .finite .negative m q h) :
    - -x = x := by
  change Float.ofModel (.pack (-x).toModel.unpack.neg) = x
  rw [unpack_neg_of_negative hx, eq_pack_unpack x, hx]
  rfl

theorem isNegative_iff : isNegative x = true ↔ 2 ^ 63 ≤ x.toBits.toNat := by
  have hlt : x.toBits.toNat < 2 ^ 64 := x.toBits.toNat_lt
  change decide (x.toBits.toNat / 2 ^ 63 = 1) = true ↔ _
  rw [decide_eq_true_iff]
  omega

/-- Significand and exponent do not depend on the sign. -/
theorem parts_congr (h : x.toBits.toNat = 2 ^ 63 + y.toBits.toNat) : parts x = parts y := by
  have hfraction : x.toBits.toNat % 2 ^ 52 = y.toBits.toNat % 2 ^ 52 := by omega
  have hexponent : x.toBits.toNat / 2 ^ 52 % 2048 = y.toBits.toNat / 2 ^ 52 % 2048 := by omega
  rw [parts_eq, parts_eq, hfraction, hexponent]

/-- A negative number is written as its opposite after a minus. -/
theorem plain_of_negative {h : 0 < m} (hx : x.toModel.unpack = .finite .negative m q h) :
    plain x = "-" ++ plain (-x) := by
  have hbits := toNat_toBits_negative hx
  have hopposite := unpack_neg_of_negative hx
  have hlt : x.toBits.toNat < 2 ^ 64 := x.toBits.toNat_lt
  have hminus : isNegative x = true := isNegative_iff.2 (by omega)
  have hplus : ¬isNegative (-x) = true := by
    rw [isNegative_iff]
    omega
  have hnan : x.isNaN = false := congrArg UnpackedFloat.isNaN hx
  have hinf : x.isInf = false := congrArg UnpackedFloat.isInf hx
  have hnan' : (-x).isNaN = false := congrArg UnpackedFloat.isNaN hopposite
  have hinf' : (-x).isInf = false := congrArg UnpackedFloat.isInf hopposite
  unfold plain written
  rw [hnan, hinf, hnan', hinf', if_pos hminus, if_neg hplus, parts_congr hbits]
  simp only [Bool.false_eq_true, if_false]
  split <;> rw [String.empty_append]

/-- Every number but the NaN is read back from its plain text. -/
theorem real?_plain_of_isNaN (hx : x.isNaN = false) : real? (plain x) = some x := by
  have hself := eq_pack_unpack x
  cases hunpack : x.toModel.unpack with
  | notANumber =>
      have hnan : x.isNaN = true := congrArg UnpackedFloat.isNaN hunpack
      rw [hx] at hnan
      cases hnan
  | infinity s =>
      rw [hunpack] at hself
      rw [hself]
      cases s <;> rfl
  | zero s =>
      rw [hunpack] at hself
      rw [hself]
      cases s <;> rfl
  | finite s m q h =>
      cases s with
      | positive =>
          obtain ⟨hfinite, hpos⟩ := pos_of_unpack hunpack
          exact real?_plain hfinite hpos
      | negative =>
          obtain ⟨hfinite, hpos⟩ := pos_of_unpack (unpack_neg_of_negative hunpack)
          have hread := real?_plain hfinite hpos
          have hsign : splitSign (plain (-x)).toList = (false, (plain (-x)).toList) := by
            rw [toList_plain hfinite hpos]
            exact splitSign_of_forall fun _ => mem_positional fun _ => isDigit_of_mem_digits
          have htext : (plain x).toList = '-' :: (plain (-x)).toList := by
            rw [plain_of_negative hunpack, String.toList_append]
            rfl
          rw [real?, realOf?, hsign] at hread
          rw [real?, realOf?, htext, splitSign]
          dsimp only at hread ⊢
          rw [Option.map_eq_some_iff] at hread ⊢
          obtain ⟨y, hy, hyx⟩ := hread
          refine ⟨y, hy, ?_⟩
          rw [if_neg Bool.false_ne_true] at hyx
          rw [if_pos rfl, hyx, neg_neg_of_negative hunpack]

theorem isWord_plain (hx : x.isNaN = false) : Text.IsWord (plain x) where
  ne_empty h := by
    have hread := real?_plain_of_isNaN hx
    rw [h] at hread
    cases hread
  visible _ := not_isBlank_of_mem_plain

end Number

end CoverageAccess
