import CoverageAccess.Proofs.Constraint.Comparison
import CoverageAccess.Proofs.Request.Document
/-!
# What a document changes

Reading a document can only take characters away from a request: from the reference system, the
interpolation method and the bounds by value. So if a request and what its document is read as have
one clause for a field, and write the same behind the sizes, then nothing has been taken away, and
the request is settled.
-/

namespace CoverageAccess

namespace Text

theorem trim_eq_self_of_length_le {s : String} (h : s.length ≤ (trim s).length) : trim s = s := by
  obtain ⟨a, b, hs, -, -⟩ := eq_append_trimBy isBlank s.toList
  have hlength := congrArg List.length hs
  simp only [List.length_append, ← toList_trim, String.length_toList] at hlength
  have ha : a = [] := List.eq_nil_of_length_eq_zero (by omega)
  have hb : b = [] := List.eq_nil_of_length_eq_zero (by omega)
  rw [ha, hb, List.nil_append, List.append_nil, ← toList_trim] at hs
  exact (String.toList_inj.1 hs).symm

theorem length_trim_le (s : String) : (trim s).length ≤ s.length := by
  rw [← String.length_toList, ← String.length_toList, toList_trim]
  exact length_trimBy_le _ _

end Text

namespace Subset

variable {s t : Subset} {b : String}

theorem length_clean_le (b : String) : (clean b).length ≤ b.length := by
  rw [← String.length_toList, ← String.length_toList, clean, String.toList_ofList]
  exact Text.length_trimBy_le _ _

theorem length_clean_trim_le (b : String) : (clean (Text.trim b)).length ≤ b.length :=
  (length_clean_le _).trans (Text.length_trim_le _)

theorem trim_eq_self_of_length_clean (h : b.length ≤ (clean (Text.trim b)).length) :
    Text.trim b = b :=
  Text.trim_eq_self_of_length_le (h.trans (length_clean_le _))

theorem trim_of_isPositionLike (h : isPositionLike b = true) : Text.trim b = b := by
  apply Text.trim_of_forall_not_isBlank
  intro c hc
  rcases mem_of_isPositionLike h hc with hd | rfl | rfl | rfl
  · exact Number.not_isBlank_of_isDigit hd
  · decide
  · decide
  · decide

/-- What a subset is read as has its dimension, and trimmed and cleaned bounds. -/
theorem reread_eq_ok (h : s.reread = .ok t) :
    t.Inferred ∧ t.dimension = s.dimension ∧
      t.selection = s.selection.map fun b => clean (Text.trim b) := by
  obtain ⟨dimension, selection, kind⟩ := s
  cases selection with
  | trim low high =>
      change trim dimension (Text.trim low) (Text.trim high) = .ok t at h
      obtain ⟨-, -, -, rfl⟩ := trim_eq_ok_iff.1 h
      exact ⟨.trim h, rfl, rfl⟩
  | slice point =>
      change slice dimension (Text.trim point) = .ok t at h
      obtain ⟨-, rfl⟩ := slice_eq_ok_iff.1 h
      exact ⟨.slice h, rfl, rfl⟩

theorem Inferred.reread_of_byPosition (h : s.Inferred) (hp : s.byPosition = true) :
    s.reread = .ok s := by
  refine h.reread fun b hb => trim_of_isPositionLike ?_
  rw [(h.bounds b hb).2, hp]

/-- If a subset is read as one with the same condition, there were no blanks around its bounds. -/
theorem trim_bounds_of_condition_eq {target : String} (h : s.reread = .ok t)
    (hc : s.condition target = t.condition target) : ∀ b ∈ s.selection.bounds, Text.trim b = b := by
  obtain ⟨-, -, hselection⟩ := reread_eq_ok h
  have hlength := congrArg String.length hc
  rw [condition, condition, hselection] at hlength
  cases hs : s.selection with
  | trim low high =>
      have hlow := length_clean_trim_le low
      have hhigh := length_clean_trim_le high
      simp only [hs, Selection.map, Selection.condition, toString, String.length_append] at hlength
      simp only [Selection.bounds, List.forall_mem_cons, List.not_mem_nil, false_implies,
        implies_true, and_true]
      exact ⟨trim_eq_self_of_length_clean (by omega), trim_eq_self_of_length_clean (by omega)⟩
  | slice point =>
      simp only [hs, Selection.map, Selection.condition, toString, String.length_append] at hlength
      simp only [Selection.bounds, List.forall_mem_singleton]
      exact trim_eq_self_of_length_clean (by omega)

end Subset

namespace Scaling

/-- What is written for a part that may be absent. -/
def partLength (o : Option String) : Nat :=
  o.elim 0 fun t => t.length + 1

theorem length_tail (s : Scaling) :
    s.tail.length = partLength s.outputCrs + partLength s.interpolation := by
  have hcomma : ",".length = 1 := rfl
  obtain ⟨mode, crs, interpolation⟩ := s
  cases crs <;> cases interpolation <;> simp [tail, partLength, Text.join, hcomma] <;> omega

/-- What is kept of a part is not longer, and it is the part if it is as long. -/
theorem partLength_bind_kept (o : Option String) :
    partLength (o.bind kept) ≤ partLength o ∧
      (partLength o ≤ partLength (o.bind kept) → o.bind kept = o) := by
  cases o with
  | none => simp
  | some s =>
      rw [Option.bind_some]
      cases hk : kept s with
      | none => simp [partLength]
      | some t =>
          obtain ⟨rfl, -⟩ := kept_eq_some_iff.1 hk
          have hle := Text.length_trim_le s
          refine ⟨by simpa [partLength] using hle, fun h => ?_⟩
          rw [Text.trim_eq_self_of_length_le (by simpa [partLength] using h)]

theorem reread_eq_self_of_tail_eq {s : Scaling} (h : s.tail = s.reread.tail) : s.reread = s := by
  obtain ⟨hcrs, hcrs'⟩ := partLength_bind_kept s.outputCrs
  obtain ⟨hinterpolation, hinterpolation'⟩ := partLength_bind_kept s.interpolation
  have hlength := congrArg String.length h
  rw [length_tail, length_tail] at hlength
  simp only [reread] at hlength
  rw [reread, hcrs' (by omega), hinterpolation' (by omega)]

theorem reread_eq_self_of_not_isActive {s : Scaling} (h : s.isActive = false) : s.reread = s := by
  obtain ⟨mode, crs, interpolation⟩ := s
  simp only [isActive, Bool.or_eq_false_iff, Option.isSome_eq_false_iff,
    Option.isNone_iff_eq_none] at h
  obtain ⟨⟨rfl, rfl⟩, rfl⟩ := h
  rfl

end Scaling

namespace Request

variable {r : Request} {subsets : Table Subset} {k : String}

theorem get?_reread (hr : r.Expressible)
    (h : enterAll Subset.reread ∅ r.subsets.values = .ok subsets) {s : Subset}
    (hs : r.subsets.get? k = some s) : ∃ t, s.reread = .ok t ∧ subsets.get? k = some t := by
  have he : (k, s) ∈ r.subsets.entries := Table.get?_eq_some_iff.1 hs
  have hmem : s ∈ r.subsets.values := List.mem_map_of_mem he
  have hkey : k = s.dimension := (hr.subsets _ he).1
  obtain ⟨t, ht, hget⟩ := exists_of_mem_of_enterAll h hmem
  obtain ⟨-, hdimension, -⟩ := Subset.reread_eq_ok ht
  rw [hdimension, ← hkey] at hget
  exact ⟨t, ht, hget⟩

theorem exists_get?_of_reread (hr : r.Expressible)
    (h : enterAll Subset.reread ∅ r.subsets.values = .ok subsets) {t : Subset}
    (ht : subsets.get? k = some t) : ∃ s, r.subsets.get? k = some s ∧ s.reread = .ok t := by
  have he : (k, t) ∈ subsets.entries := Table.get?_eq_some_iff.1 ht
  rcases exists_of_mem_entries h he with hnone | ⟨hkey, s, hs, hread⟩
  · cases hnone
  · obtain ⟨⟨key, s'⟩, hmem, rfl⟩ := List.mem_map.1 hs
    obtain ⟨-, hdimension, -⟩ := Subset.reread_eq_ok hread
    have hkey' : key = s'.dimension := (hr.subsets _ hmem).1
    have hk : k = key := hkey.trans (hdimension.trans hkey'.symm)
    refine ⟨s', ?_, hread⟩
    rw [Table.get?_eq_some_iff, hk]
    exact hmem

theorem isRestrictedByValue_of_reread (hr : r.Expressible)
    (hinferred : ∀ s ∈ r.subsets.values, s.Inferred)
    (h : enterAll Subset.reread ∅ r.subsets.values = .ok subsets) {a : Coordinate}
    (ha : Coverage.isRestrictedByValue subsets a = true) :
    Coverage.isRestrictedByValue r.subsets a = true := by
  obtain ⟨t, hget, ht⟩ := (Option.any_eq_true _ _).1 ha
  obtain ⟨s, hs, hread⟩ := exists_get?_of_reread hr h hget
  refine (Option.any_eq_true _ _).2 ⟨s, hs, ?_⟩
  have hmem : s ∈ r.subsets.values := List.mem_map_of_mem (Table.get?_eq_some_iff.1 hs)
  cases hp : s.byPosition with
  | false => simp [Subset.byValue, hp]
  | true =>
      rw [(hinferred s hmem).reread_of_byPosition hp] at hread
      cases hread
      exact ht

/-- If a request and what its document is read as have one clause, on axes that do not count time,
then there are no blanks around the bounds. -/
theorem trim_bounds_of_clause_eq {c : Coverage} {f : Field} {clause : Clause} (hr : r.Expressible)
    (hinferred : ∀ s ∈ r.subsets.values, s.Inferred)
    (h : enterAll Subset.reread ∅ r.subsets.values = .ok subsets)
    (hchecks : c.checkSubsets r.subsets.entries = .ok ())
    (htime : ∀ a ∈ c.coordinates, a.isTime = false) (hclause : c.clause r.subsets f = .ok clause)
    (hclause' : c.clause subsets f = .ok clause) :
    ∀ s ∈ r.subsets.values, ∀ b ∈ s.selection.bounds, Text.trim b = b := by
  obtain ⟨texts, htexts, hclause⟩ := bind_eq_ok_iff.1 hclause
  obtain ⟨texts', htexts', hclause'⟩ := bind_eq_ok_iff.1 hclause'
  obtain rfl : texts = clause.conditions := congrArg Clause.conditions (pure_eq_ok_iff.1 hclause)
  obtain rfl : texts' = clause.conditions :=
    congrArg Clause.conditions (pure_eq_ok_iff.1 hclause')
  have hconditions := Coverage.hasCondition_of_conditions htexts
  have hconditions' := Coverage.hasCondition_of_conditions htexts'
  have hfilter : c.coordinates.filter (Coverage.isRestrictedByValue subsets) =
      c.coordinates.filter (Coverage.isRestrictedByValue r.subsets) := by
    refine (List.monotone_filter_right _ fun a ha => ?_).eq_of_length ?_
    · exact isRestrictedByValue_of_reread hr hinferred h ha
    · rw [hconditions'.length_eq, hconditions.length_eq]
  rw [hfilter] at hconditions'
  intro s hs
  obtain ⟨e, he, rfl⟩ := List.mem_map.1 hs
  cases hp : e.2.byPosition with
  | true =>
      intro b hb
      exact Subset.trim_of_isPositionLike (((hinferred _ hs).bounds b hb).2.trans hp)
  | false =>
      obtain ⟨a, ha, hget⟩ := Coverage.exists_coordinate hchecks he
      have hvalue : Coverage.isRestrictedByValue r.subsets a = true :=
        (Option.any_eq_true _ _).2 ⟨e.2, hget, by simp [Subset.byValue, hp]⟩
      obtain ⟨text, ⟨s, hs', htext⟩, ⟨t, ht', htext'⟩⟩ :=
        exists_of_mem_of_forall₂_of_forall₂ hconditions hconditions'
          (List.mem_filter.2 ⟨ha, hvalue⟩)
      obtain ⟨t', hread, hget'⟩ := get?_reread hr h hget
      obtain rfl : e.2 = s := Option.some.inj (hget.symm.trans hs')
      obtain rfl : t' = t := Option.some.inj (hget'.symm.trans ht')
      rw [if_neg (by simp [htime a ha])] at htext htext'
      exact Subset.trim_bounds_of_condition_eq hread (htext.trans htext'.symm)

end Request

end CoverageAccess
