import CoverageAccess.Proofs.Constraint.Nesting
import CoverageAccess.Proofs.Subset.Bounds
import CoverageAccess.Subset.Clause
/-!
# What subsets write

The bracket of a subset by position holds plain characters only, and the condition of a subset by
value is a quotation without a quote inside, also when the bounds have been turned into the units of
a time coordinate. Both rest on what is known of the bounds of constructed subsets.
-/

namespace CoverageAccess

open Nesting

namespace Subset

theorem isPlain_of_mem_of_isPositionLike {b : String} (h : isPositionLike b = true) :
    ∀ c ∈ b.toList, isPlain c = true := by
  intro c hc
  rcases mem_of_isPositionLike h hc with hd | rfl | rfl | rfl
  · exact isPlain_of_isDigit hd
  · decide
  · decide
  · decide

end Subset

namespace Selection

theorem isBracket_bracket {t : Selection}
    (h : ∀ b ∈ t.bounds, ∀ c ∈ b.toList, isPlain c = true) : IsBracket t.bracket := by
  have hone : ∀ c ∈ ":1:".toList, isPlain c = true := by decide
  cases t with
  | trim low high =>
      have hlow := h low (by simp [bounds])
      have hhigh := h high (by simp [bounds])
      rw [bracket]
      split
      · exact ⟨['*'], by decide, by decide⟩
      · refine ⟨(if low = "*" then "0" else low).toList ++ ":1:".toList ++ high.toList,
          by simp [toString], ?_⟩
        have hstart : ∀ c ∈ (if low = "*" then "0" else low).toList, isPlain c = true := by
          split
          · decide
          · exact hlow
        intro c hc
        rcases List.mem_append.1 hc with hc | hc
        · rcases List.mem_append.1 hc with hc | hc
          · exact hstart c hc
          · exact hone c hc
        · exact hhigh c hc
  | slice point =>
      exact ⟨point.toList, by simp [bracket, toString], h point (by simp [bounds])⟩

theorem isQuotation_condition {t : Selection} {target : String} (ht : '"' ∉ target.toList)
    (h : ∀ b ∈ t.bounds, '"' ∉ b.toList) : IsQuotation (t.condition target) := by
  cases t with
  | trim low high =>
      have hlow := h low (by simp [bounds])
      have hhigh := h high (by simp [bounds])
      refine ⟨low.toList ++ "<=".toList ++ target.toList ++ "<=".toList ++ high.toList,
        by simp [condition, toString], ?_⟩
      simp [ht, hlow, hhigh]
  | slice point =>
      have hpoint := h point (by simp [bounds])
      refine ⟨target.toList ++ "=".toList ++ point.toList, by simp [condition, toString], ?_⟩
      simp [ht, hpoint]

end Selection

namespace Subset

variable {s : Subset} {units target b b' text : String}

theorem Constructed.isBracket (h : s.Constructed) (ht : s.bracket? = some text) :
    IsBracket text := by
  obtain ⟨hp, ht⟩ := Option.ite_none_right_eq_some.1 ht
  cases ht
  refine Selection.isBracket_bracket fun b hb => ?_
  exact isPlain_of_mem_of_isPositionLike ((h.bounds b hb).2 hp)

theorem Constructed.isQuotation (h : s.Constructed) (ht : '"' ∉ target.toList) :
    IsQuotation (s.condition target) :=
  Selection.isQuotation_condition ht fun b hb => (h.bounds b hb).1.quote

theorem quote_not_mem_boundInUnits (hb : '"' ∉ b.toList) (h : boundInUnits units b = .ok b') :
    '"' ∉ b'.toList := by
  unfold boundInUnits at h
  split at h
  next =>
    cases h
    exact hb
  next =>
    obtain ⟨i, -, rfl⟩ := map_eq_ok_iff.1 h
    intro hq
    rcases Number.mem_ofInteger hq with hd | hd
    · exact absurd hd (by decide)
    · exact absurd hd (by decide)

theorem quote_not_mem_selectionInUnits {t t' : Selection} (ht : ∀ b ∈ t.bounds, '"' ∉ b.toList)
    (h : selectionInUnits units t = .ok t') : ∀ b ∈ t'.bounds, '"' ∉ b.toList := by
  cases t with
  | trim low high =>
      obtain ⟨low', hlow, h⟩ := bind_eq_ok_iff.1 h
      obtain ⟨high', hhigh, h⟩ := bind_eq_ok_iff.1 h
      rw [← pure_eq_ok_iff.1 h]
      simp only [Selection.bounds, List.forall_mem_cons, List.not_mem_nil, false_implies,
        implies_true, and_true] at ht ⊢
      exact ⟨quote_not_mem_boundInUnits ht.1 hlow, quote_not_mem_boundInUnits ht.2 hhigh⟩
  | slice point =>
      obtain ⟨point', hpoint, rfl⟩ := map_eq_ok_iff.1 h
      simp only [Selection.bounds, List.forall_mem_singleton] at ht ⊢
      exact quote_not_mem_boundInUnits ht hpoint

theorem Constructed.isQuotation_time (h : s.Constructed) (ht : '"' ∉ target.toList)
    (htext : s.timeCondition units target = .ok text) : IsQuotation text := by
  obtain ⟨t, hsel, rfl⟩ := map_eq_ok_iff.1 htext
  refine Selection.isQuotation_condition ht (quote_not_mem_selectionInUnits ?_ hsel)
  exact fun b hb => (h.bounds b hb).1.quote

end Subset

end CoverageAccess
