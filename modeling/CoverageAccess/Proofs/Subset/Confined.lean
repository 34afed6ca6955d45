import CoverageAccess.Proofs.Subset.Clause
import CoverageAccess.Proofs.Subset.Markup
/-!
# Bounds that stay where they are put

Every subset that a constructor makes is `Confined`: none of its bounds is empty, holds a double quote
or has a blank or a quote at an end, those of a subset by position are positions, and no wildcard is
among those of a subset by value. So the condition on a variable is `Enclosed` in its two quotes,
also after a change of units, and no text of a client closes it early; and of an element only
wildcards are left out. All of it is `Constructed.confined`.
-/

namespace CoverageAccess

namespace Subset

open Markup Nesting

/-- The characters that do not stand at the ends of a bound. -/
def margin : List Char := [' ', '\t', '\n', '\r', '"', '\'']

/-- A bound with something in it, but no double quote, and with its margins taken away. -/
structure IsInner (bound : String) : Prop where
  ne_empty : bound ≠ ""
  quote : '"' ∉ bound.toList
  head : ∀ c, bound.toList.head? = some c → c ∉ margin
  last : ∀ c, bound.toList.getLast? = some c → c ∉ margin

/-- The invariant of subsets. -/
structure Confined (s : Subset) : Prop where
  inner : ∀ b ∈ s.selection.bounds, IsInner b
  position : s.byPosition = true →
    ∀ b ∈ s.selection.bounds, b = "*" ∨ ∃ n, Number.signed? 64 b.toList = some n
  value : s.byPosition = false → ∀ b ∈ s.selection.bounds, b ≠ "*"

/-- A text with exactly two double quotes, which are its ends. -/
structure Enclosed (text : String) : Prop where
  count : text.toList.count '"' = 2
  head : text.toList.head? = some '"'
  last : text.toList.getLast? = some '"'

variable {s : Subset} {bound text : String}

theorem isMargin_eq_false_iff {c : Char} : isMargin c = false ↔ c ∉ margin := by
  simp only [isMargin, Text.isLineBlank, margin, List.mem_cons, List.not_mem_nil, or_false]
  grind

theorem IsBound.bare (h : IsBound bound) : Text.Bare isMargin bound.toList := by
  rw [← Text.trimBy_eq_self_iff]
  simpa [Subset.clean] using congrArg String.toList h.clean

theorem IsBound.isInner (h : IsBound bound) : IsInner bound where
  ne_empty := h.ne_empty
  quote := h.quote
  head c hc := isMargin_eq_false_iff.1 (h.bare.1 c hc)
  last c hc := isMargin_eq_false_iff.1 (h.bare.2 c hc)

theorem eq_or_exists_of_isPositionLike (h : isPositionLike bound = true) :
    bound = "*" ∨ ∃ n, Number.signed? 64 bound.toList = some n := by
  rcases Bool.or_eq_true_iff.1 h with h | h
  · exact .inl (beq_iff_eq.1 h)
  · exact .inr (Option.isSome_iff_exists.1 h)

theorem Constructed.isConfined (h : s.Constructed) : s.Confined where
  inner b hb := (h.bounds b hb).1.isInner
  position hs b hb := eq_or_exists_of_isPositionLike ((h.bounds b hb).2 hs)
  value hs := h.ne_wildcard hs

theorem enclosed_of_isQuotation (h : IsQuotation text) : Enclosed text := by
  obtain ⟨inner, htext, hinner⟩ := h
  constructor
  · rw [htext, List.count_append, List.count_cons_self, List.count_eq_zero_of_not_mem hinner]
    rfl
  · rw [htext]
    rfl
  · rw [htext, List.getLast?_append]
    rfl

/-- In an element a bound stands as it is. -/
theorem IsInner.leaf (h : IsInner bound) (name : String) :
    Element.leaf name bound = ⟨name, [], [], bound⟩ := by
  have hblank {c : Char} (hc : c ∉ margin) : Text.isLineBlank c = false := by
    have hmargin := isMargin_eq_false_iff.2 hc
    simp only [isMargin, Bool.or_eq_false_iff] at hmargin
    exact hmargin.1.1
  have hbare : Text.Bare Text.isLineBlank bound.toList :=
    ⟨fun c hc => hblank (h.head c hc), fun c hc => hblank (h.last c hc)⟩
  rw [Element.leaf, hbare.trimBy_eq, String.ofList_toList]

/-- What a trim is written as holds a bound exactly if it is not the wildcard. -/
theorem Confined.childrenNamed_trim (h : s.Confined) {low high : String}
    (hs : s.selection = .trim low high) :
    s.element.childrenNamed "TrimLow" = (if low = "*" then [] else [⟨"TrimLow", [], [], low⟩]) ∧
      s.element.childrenNamed "TrimHigh" =
        if high = "*" then [] else [⟨"TrimHigh", [], [], high⟩] := by
  have hbounds := h.inner
  obtain ⟨dimension, selection, kind⟩ := s
  subst hs
  have hlow := (hbounds low (by simp [Selection.bounds])).leaf "TrimLow"
  have hhigh := (hbounds high (by simp [Selection.bounds])).leaf "TrimHigh"
  simp only [element, wildcard, hlow, hhigh, Element.childrenNamed]
  constructor <;> split <;> split <;> rfl

theorem Confined.childrenNamed_slice (h : s.Confined) {point : String}
    (hs : s.selection = .slice point) :
    s.element.childrenNamed "SlicePoint" = [⟨"SlicePoint", [], [], point⟩] := by
  have hbounds := h.inner
  obtain ⟨dimension, selection, kind⟩ := s
  subst hs
  have hpoint := (hbounds point (by simp [Selection.bounds])).leaf "SlicePoint"
  simp only [element, hpoint]
  rfl

/-- Whatever texts or element a subset is made of, its bounds are confined; on a variable whose name
holds no double quote its condition has two of them, at its ends, in its own units and in those of
any time coordinate; and its element holds every bound that is not a wildcard of a range. -/
theorem Constructed.confined (h : s.Constructed) :
    s.Confined ∧
    (∀ target : String, '"' ∉ target.toList →
      Enclosed (s.condition target) ∧
      ∀ units text, s.timeCondition units target = .ok text → Enclosed text) ∧
    ∃ e : Element, Element.parse s.toNode.render = .ok e ∧
      (∀ low high, s.selection = .trim low high →
        e.childrenNamed "TrimLow" = (if low = "*" then [] else [⟨"TrimLow", [], [], low⟩]) ∧
        e.childrenNamed "TrimHigh" =
          if high = "*" then [] else [⟨"TrimHigh", [], [], high⟩]) ∧
      ∀ point, s.selection = .slice point →
        e.childrenNamed "SlicePoint" = [⟨"SlicePoint", [], [], point⟩] := by
  have hs := h.isConfined
  refine ⟨hs, fun target ht => ⟨?_, fun units text htext => ?_⟩, s.element,
    parse_render s.wellNamed_toNode s.element?_toNode, fun low high hsel => ?_,
    fun point hsel => ?_⟩
  · exact enclosed_of_isQuotation (h.isQuotation ht)
  · exact enclosed_of_isQuotation (h.isQuotation_time ht htext)
  · exact hs.childrenNamed_trim hsel
  · exact hs.childrenNamed_slice hsel

/-- The quotes that a client puts around the bounds do not reach the condition. -/
theorem confined_quotedTrim :
    let s : Subset := ⟨"time", .trim "2020-01-01" "2020-02-01", false⟩
    ofQuery "time(\"2020-01-01\", '2020-02-01')" = .ok s ∧ s.Confined ∧
      Enclosed (s.condition "time") := by
  intro s
  have hs : ofQuery "time(\"2020-01-01\", '2020-02-01')" = .ok s := by decide
  obtain ⟨hconfined, hcondition, -⟩ := Constructed.confined (.inferred (.ofQuery hs))
  exact ⟨hs, hconfined, (hcondition "time" (by decide)).1⟩

end Subset

end CoverageAccess
