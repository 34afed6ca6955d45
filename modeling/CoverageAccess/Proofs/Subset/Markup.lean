import CoverageAccess.Proofs.Markup.Lookup
import CoverageAccess.Proofs.Subset.Bounds
/-!
# Subsets written as elements

The element of a subset is read as the subset that the constructors make of the trimmed bounds; so
an inferred subset with trimmed bounds is read back. A wildcard that is left out comes back as a
wildcard.
-/

namespace CoverageAccess

namespace Subset

open Markup

/-- The element that a subset is read as. -/
def element (s : Subset) : Element :=
  let dimension := Element.leaf "Dimension" s.dimension
  let boundElements (name bound : String) : List Element :=
    if bound = wildcard then [] else [.leaf name bound]
  match s.selection with
  | .trim low high =>
    ⟨"DimensionTrim", [],
      dimension :: boundElements "TrimLow" low ++ boundElements "TrimHigh" high, ""⟩
  | .slice point => ⟨"DimensionSlice", [], [dimension, .leaf "SlicePoint" point], ""⟩

theorem element?_toNode (s : Subset) : s.toNode.element? = some s.element := by
  obtain ⟨dimension, selection, kind⟩ := s
  cases selection with
  | trim low high =>
      simp only [toNode, element, boundNodes]
      split <;> split <;> rfl
  | slice point => rfl

theorem wellNamed_toNode (s : Subset) : s.toNode.WellNamed := by
  obtain ⟨dimension, selection, kind⟩ := s
  have hleaf (tag text : String) (h : IsName tag) : (Node.leaf tag text).WellNamed :=
    Node.wellNamed_leaf h text
  have hnone : AreAttributes [] := by decide
  cases selection with
  | trim low high =>
      refine ⟨by decide, hnone, Node.allWellNamed_iff.2 ?_⟩
      intro n hn
      simp only [boundNodes, List.cons_append, List.mem_cons, List.mem_append] at hn
      rcases hn with rfl | hn | hn
      · exact hleaf _ _ (by decide)
      · split at hn
        · cases hn
        · rw [List.mem_singleton.1 hn]
          exact hleaf _ _ (by decide)
      · split at hn
        · cases hn
        · rw [List.mem_singleton.1 hn]
          exact hleaf _ _ (by decide)
  | slice point =>
      exact ⟨by decide, hnone, hleaf _ _ (by decide), hleaf _ _ (by decide), trivial⟩

theorem descendants_element (s : Subset) {name : String}
    (h : name ∉ ["Dimension", "TrimLow", "TrimHigh", "SlicePoint"]) :
    s.element.descendants name = [] := by
  simp only [List.mem_cons, List.not_mem_nil, or_false, not_or] at h
  obtain ⟨hdimension, hlow, hhigh, hpoint⟩ := h
  obtain ⟨dimension, selection, kind⟩ := s
  rw [Element.descendants_eq]
  apply Element.descendantsAll_eq_nil
  intro e he
  cases selection with
  | trim low high =>
      simp only [element, List.cons_append, List.mem_cons, List.mem_append] at he
      rcases he with rfl | he | he
      · exact ⟨Ne.symm hdimension, rfl⟩
      · split at he
        · cases he
        · rw [List.mem_singleton.1 he]
          exact ⟨Ne.symm hlow, rfl⟩
      · split at he
        · cases he
        · rw [List.mem_singleton.1 he]
          exact ⟨Ne.symm hhigh, rfl⟩
  | slice point =>
      simp only [element, List.mem_cons, List.not_mem_nil, or_false] at he
      rcases he with rfl | rfl
      · exact ⟨Ne.symm hdimension, rfl⟩
      · exact ⟨Ne.symm hpoint, rfl⟩

theorem name_element (s : Subset) :
    s.element.name = "DimensionTrim" ∨ s.element.name = "DimensionSlice" := by
  obtain ⟨dimension, selection, kind⟩ := s
  cases selection with
  | trim low high => exact .inl rfl
  | slice point => exact .inr rfl

theorem startsWith_name_element (s : Subset) : Text.startsWith "Dimension" s.element.name = true := by
  rcases s.name_element with h | h <;>
  · rw [h]
    decide

theorem dimensionOf_element {s : Subset} (hne : s.dimension ≠ "")
    (htrim : Text.trim s.dimension = s.dimension) : dimensionOf s.element = .ok s.dimension := by
  have hchild : s.element.childText? "Dimension" = some s.dimension := by
    obtain ⟨dimension, selection, kind⟩ := s
    cases selection <;> simpa [element, Element.childText?, Element.child?] using htrim
  rw [dimensionOf, hchild]
  exact if_neg hne

/-- What is read of the element of a subset: what the constructors make of the trimmed bounds. -/
def reread (s : Subset) : Except Refusal Subset :=
  match s.selection with
  | .trim low high => trim s.dimension (Text.trim low) (Text.trim high)
  | .slice point => slice s.dimension (Text.trim point)

theorem trim_wildcard : Text.trim wildcard = wildcard := by decide

/-- The element of a subset is read as what the constructors make of the trimmed bounds. -/
theorem ofElement_element {s : Subset} (hne : s.dimension ≠ "")
    (htrim : Text.trim s.dimension = s.dimension) : ofElement s.element = s.reread := by
  have hdimension := dimensionOf_element hne htrim
  obtain ⟨dimension, selection, kind⟩ := s
  cases selection with
  | trim low high =>
      have hname : (element ⟨dimension, .trim low high, kind⟩).name = "DimensionTrim" := rfl
      have hlow : ((element ⟨dimension, .trim low high, kind⟩).childText? "TrimLow").getD wildcard =
          Text.trim low := by
        by_cases hl : low = wildcard <;> by_cases hh : high = wildcard <;>
          simp [element, Element.childText?, Element.child?, hl, hh, trim_wildcard]
      have hhigh : ((element ⟨dimension, .trim low high, kind⟩).childText? "TrimHigh").getD
          wildcard = Text.trim high := by
        by_cases hl : low = wildcard <;> by_cases hh : high = wildcard <;>
          simp [element, Element.childText?, Element.child?, hl, hh, trim_wildcard]
      rw [ofElement, if_pos hname, hdimension, ok_bind, hlow, hhigh, reread]
  | slice point =>
      have hname : (element ⟨dimension, .slice point, kind⟩).name = "DimensionSlice" := rfl
      have hpoint : (element ⟨dimension, .slice point, kind⟩).childText? "SlicePoint" =
          some (Text.trim point) := by
        simp [element, Element.childText?, Element.child?]
      rw [ofElement, if_neg (by rw [hname]; decide), if_pos hname, hpoint, hdimension]
      exact ok_bind _ _

/-- An inferred subset with trimmed bounds is made again. -/
theorem Inferred.reread {s : Subset} (h : s.Inferred)
    (hbounds : ∀ b ∈ s.selection.bounds, Text.trim b = b) : s.reread = .ok s := by
  obtain ⟨htrim, hslice⟩ := h.eq_ok_self
  unfold Subset.reread
  split
  next low high hs =>
    rw [hbounds low (by simp [hs, Selection.bounds]),
      hbounds high (by simp [hs, Selection.bounds])]
    exact htrim low high hs
  next point hs =>
    rw [hbounds point (by simp [hs, Selection.bounds])]
    exact hslice point hs

end Subset

end CoverageAccess
