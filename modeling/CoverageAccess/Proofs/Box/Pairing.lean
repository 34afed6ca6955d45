import Mathlib.Data.List.Nodup
import Mathlib.Data.List.Perm.Basic
import CoverageAccess.Box.Relation
import CoverageAccess.Proofs.Outcome
/-!
# Pairs of axes

Two boxes can be compared if they are `Compatible`. Axes that are not found in the other box drop out
of the pairs without notice; but if the axis names of each box differ, then every axis of either box
stands in exactly one pair of compatible boxes (`map_fst_paired`, `map_snd_paired_perm`). So a
relation of all pairs is a relation of all axes of one name, in which the order of the axes plays no
part.
-/

namespace CoverageAccess

namespace Box

/-- The same axis names, and not two different reference systems. -/
structure Compatible (b c : Box) : Prop where
  labels : ∀ n, n ∈ b.labels ↔ n ∈ c.labels
  crs : ∀ m t, b.crs = some m → c.crs = some t → m = t

variable {α : Type} {b c u : Box} {n : String} {x y z : Axis}

theorem Compatible.refl (b : Box) : b.Compatible b where
  labels _ := Iff.rfl
  crs _ _ hm ht := Option.some.inj (hm.symm.trans ht)

theorem Compatible.symm (h : b.Compatible c) : c.Compatible b where
  labels n := (h.labels n).symm
  crs m t hm ht := (h.crs t m ht hm).symm

instance : Std.Symm Compatible :=
  ⟨fun _ _ => Compatible.symm⟩

theorem compatible_comm : b.Compatible c ↔ c.Compatible b :=
  ⟨Compatible.symm, Compatible.symm⟩

theorem systemConflict_eq_none_iff :
    systemConflict b c = none ↔ ∀ m t, b.crs = some m → c.crs = some t → m = t := by
  unfold systemConflict
  split
  next m t hm ht => simp [hm, ht]
  next h =>
    refine iff_of_true rfl ?_
    intro m t hm ht
    exact (h m t hm ht).elim

theorem sameLabels_iff : sameLabels b c = true ↔ ∀ n, n ∈ b.labels ↔ n ∈ c.labels := by
  simp only [sameLabels, Bool.and_eq_true, List.all_eq_true, decide_eq_true_eq]
  exact ⟨fun h n => ⟨h.1 n, h.2 n⟩, fun h => ⟨fun n => (h n).1, fun n => (h n).2⟩⟩

theorem conflict_eq_none_iff : conflict b c = none ↔ b.Compatible c := by
  rw [conflict, Option.or_eq_none_iff, systemConflict_eq_none_iff]
  by_cases h : sameLabels b c = true
  · simp only [h, if_true, and_true]
    exact ⟨fun hcrs => ⟨sameLabels_iff.1 h, hcrs⟩, Compatible.crs⟩
  · simp only [h, Bool.false_eq_true, if_false, reduceCtorEq, and_false, false_iff]
    exact fun hbc => h (sameLabels_iff.2 hbc.labels)

instance (b c : Box) : Decidable (b.Compatible c) :=
  decidable_of_iff _ conflict_eq_none_iff

/-- Only compatible boxes are compared, by what is asked of the pairs. -/
theorem compared_eq_ok_iff {f : List (Axis × Axis) → α} {r : α} :
    compared b c f = .ok r ↔ b.Compatible c ∧ f (paired b c) = r := by
  rw [← conflict_eq_none_iff]
  unfold compared
  split
  next e h => simp [h]
  next h => simp [h]

theorem name_mem_labels (hx : x ∈ b.axes) : x.name ∈ b.labels :=
  List.mem_map_of_mem hx

theorem axis?_eq_some (h : b.axis? n = some x) : x ∈ b.axes ∧ x.name = n :=
  ⟨List.mem_of_find?_eq_some h, by simpa using List.find?_some h⟩

theorem exists_axis? (h : n ∈ b.labels) : ∃ x, b.axis? n = some x := by
  obtain ⟨x, hx, rfl⟩ := List.mem_map.1 h
  exact Option.isSome_iff_exists.1 (List.find?_isSome.2 ⟨x, hx, beq_self_eq_true _⟩)

/-- Where the names differ, an axis is found by its name. -/
theorem axis?_name (hb : b.labels.Nodup) (hx : x ∈ b.axes) : b.axis? x.name = some x := by
  obtain ⟨y, hy⟩ := exists_axis? (name_mem_labels hx)
  obtain ⟨hmem, hname⟩ := axis?_eq_some hy
  rw [hy, List.inj_on_of_nodup_map hb hmem hx hname]

theorem mem_paired : (x, y) ∈ paired b c ↔ x ∈ b.axes ∧ c.axis? x.name = some y := by
  simp only [paired, List.mem_filterMap, Option.map_eq_some_iff, Prod.mk.injEq]
  constructor
  · rintro ⟨x, hx, y, hy, rfl, rfl⟩
    exact ⟨hx, hy⟩
  · rintro ⟨hx, hy⟩
    exact ⟨x, hx, y, hy, rfl, rfl⟩

theorem mem_paired_iff (hc : c.labels.Nodup) :
    (x, y) ∈ paired b c ↔ x ∈ b.axes ∧ y ∈ c.axes ∧ y.name = x.name := by
  rw [mem_paired]
  refine and_congr_right fun _ => ⟨axis?_eq_some, ?_⟩
  rintro ⟨hy, hname⟩
  rw [← hname, axis?_name hc hy]

/-- No axis of the first box drops out. -/
theorem map_fst_paired (h : ∀ n ∈ b.labels, n ∈ c.labels) :
    (paired b c).map Prod.fst = b.axes := by
  rw [paired, List.map_filterMap]
  refine (List.filterMap_congr fun x hx => ?_).trans List.filterMap_some
  obtain ⟨y, hy⟩ := exists_axis? (h _ (name_mem_labels hx))
  rw [hy]
  rfl

theorem map_snd_paired : (paired b c).map Prod.snd = b.labels.filterMap c.axis? := by
  rw [paired, List.map_filterMap, labels, List.filterMap_map]
  refine List.filterMap_congr fun x _ => ?_
  rw [Function.comp_apply, Option.map_map]
  exact Option.map_id'

theorem filterMap_axis? (hc : c.labels.Nodup) : c.labels.filterMap c.axis? = c.axes := by
  rw [labels, List.filterMap_map]
  refine (List.filterMap_congr fun x hx => ?_).trans List.filterMap_some
  exact axis?_name hc hx

/-- No axis of the second box drops out, and none stands in two pairs. -/
theorem map_snd_paired_perm (hb : b.labels.Nodup) (hc : c.labels.Nodup)
    (h : ∀ n, n ∈ b.labels ↔ n ∈ c.labels) : ((paired b c).map Prod.snd).Perm c.axes := by
  have hperm : b.labels.Perm c.labels := (List.perm_ext_iff_of_nodup hb hc).2 h
  rw [map_snd_paired]
  simpa only [filterMap_axis? hc] using hperm.filterMap c.axis?

theorem all_paired_iff {r : Axis → Axis → Bool} (hc : c.labels.Nodup) :
    ((paired b c).all fun e => r e.1 e.2) = true ↔
      ∀ x ∈ b.axes, ∀ y ∈ c.axes, y.name = x.name → r x y = true := by
  simp only [List.all_eq_true, Prod.forall, mem_paired_iff hc]
  exact ⟨fun h x hx y hy hn => h x y ⟨hx, hy, hn⟩, fun h x y ⟨hx, hy, hn⟩ => h x hx y hy hn⟩

theorem onPeriods_iff {r : Period → Period → Bool} :
    onPeriods b c r = true ↔
      ∀ p q, b.period = some p → c.period = some q → r p q = true := by
  unfold onPeriods
  split
  next p q hp hq => simp [hp, hq]
  next h =>
    refine iff_of_true rfl ?_
    intro p q hp hq
    exact (h p q hp hq).elim

theorem contains_eq_ok_true_iff (hc : c.labels.Nodup) :
    b.contains c = .ok true ↔
      b.Compatible c ∧ (∀ x ∈ b.axes, ∀ y ∈ c.axes, y.name = x.name → x.covers y = true) ∧
        ∀ p q, b.period = some p → c.period = some q → p.surrounds q = true := by
  rw [contains, compared_eq_ok_iff, Bool.and_eq_true, all_paired_iff hc, onPeriods_iff]

theorem overlaps_comm (x y : Axis) : x.overlaps y = y.overlaps x :=
  Bool.and_comm _ _

/-- Whether boxes intersect does not depend on which of them is asked. -/
theorem intersects_comm (hb : b.labels.Nodup) (hc : c.labels.Nodup) :
    Together Eq (b.intersects c) (c.intersects b) := by
  refine .of_iff ?_ ?_
  · simp only [intersects, compared_eq_ok_iff, exists_and_left, exists_eq', and_true]
    exact compatible_comm
  · intro r r' hr hr'
    obtain ⟨-, rfl⟩ := compared_eq_ok_iff.1 hr
    obtain ⟨-, rfl⟩ := compared_eq_ok_iff.1 hr'
    rw [Bool.eq_iff_iff, Bool.and_eq_true, Bool.and_eq_true, all_paired_iff hc, all_paired_iff hb,
      onPeriods_iff, onPeriods_iff]
    have hperiods (p q : Period) : p.overlaps q = q.overlaps p := Bool.and_comm _ _
    refine and_congr ⟨fun h y hy x hx hn => ?_, fun h x hx y hy hn => ?_⟩
      ⟨fun h q p hq hp => ?_, fun h p q hp hq => ?_⟩
    · rw [overlaps_comm]
      exact h x hx y hy hn.symm
    · rw [overlaps_comm]
      exact h y hy x hx hn.symm
    · rw [hperiods]
      exact h p q hp hq
    · rw [hperiods]
      exact h q p hq hp

theorem union_eq_ok_iff :
    b.union c = .ok u ↔
      b.Compatible c ∧
        u = ⟨(paired b c).map fun e => e.1.hull e.2, periodHull b c, b.crs.or c.crs⟩ := by
  rw [union, compared_eq_ok_iff]
  exact and_congr_right fun _ => eq_comm

theorem exists_union_iff : (∃ u, b.union c = .ok u) ↔ b.Compatible c := by
  simp [union_eq_ok_iff]

/-- The union has the axis names of the first box, in their order. -/
theorem labels_union (h : b.union c = .ok u) : u.labels = b.labels := by
  obtain ⟨hbc, rfl⟩ := union_eq_ok_iff.1 h
  calc ((paired b c).map fun e => e.1.hull e.2).map Axis.name
      = ((paired b c).map Prod.fst).map Axis.name := by simp only [List.map_map]; rfl
    _ = b.labels := by rw [map_fst_paired fun n => (hbc.labels n).1, labels]

theorem exists_hull_of_mem_union (h : b.union c = .ok u) (hz : z ∈ u.axes) :
    ∃ x ∈ b.axes, ∃ y ∈ c.axes, y.name = x.name ∧ z = x.hull y := by
  obtain ⟨-, rfl⟩ := union_eq_ok_iff.1 h
  obtain ⟨⟨x, y⟩, hxy, rfl⟩ := List.mem_map.1 hz
  obtain ⟨hx, hy⟩ := mem_paired.1 hxy
  obtain ⟨hy, hname⟩ := axis?_eq_some hy
  exact ⟨x, hx, y, hy, hname, rfl⟩

end Box

end CoverageAccess
