import CoverageAccess.Proofs.Box.Constructed
import CoverageAccess.Proofs.Number.Order
/-!
# The least box around boxes

`Spans e boxes` says what it means that `e` is the least box around the boxes of a list, without
saying how it is found: on every axis its bounds are bounds of the boxes and enclose all of them, it
has the reference system that they name, and it has a period if all of them do. The union of two such
boxes is one for both lists (`Spans.union`), and two boxes that span the same boxes differ in no more
than the order of their axes (`Spans.sameUpToOrder`). So it does not matter in which order unions are
formed, and `union_least` is what they have to do with the boxes that contain others.
-/

namespace CoverageAccess

/-- The one or the other of two values that lists attain is attained by both lists together. -/
theorem exists_mem_append_eq {α β : Type} {f : α → β} {l m : List α} {x y z : β}
    (h : z = x ∨ z = y) (hx : ∃ a ∈ l, f a = x) (hy : ∃ a ∈ m, f a = y) :
    ∃ a ∈ l ++ m, f a = z := by
  obtain rfl | rfl := h
  · obtain ⟨a, ha, hfa⟩ := hx
    exact ⟨a, List.mem_append_left m ha, hfa⟩
  · obtain ⟨a, ha, hfa⟩ := hy
    exact ⟨a, List.mem_append_right l ha, hfa⟩

namespace Period

/-- The least period around the periods of a list. -/
structure Spans (p : Period) (periods : List Period) : Prop where
  covers : ∀ q ∈ periods, p.start.le q.start = true ∧ q.finish.le p.finish = true
  start : ∃ q ∈ periods, q.start = p.start
  finish : ∃ q ∈ periods, q.finish = p.finish

variable {p q : Period} {l m : List Period}

theorem spans_singleton (p : Period) : p.Spans [p] where
  covers q hq := by
    cases List.mem_singleton.1 hq
    exact ⟨Time.Instant.le_iff.2 le_rfl, Time.Instant.le_iff.2 le_rfl⟩
  start := ⟨p, List.mem_singleton_self p, rfl⟩
  finish := ⟨p, List.mem_singleton_self p, rfl⟩

theorem Spans.hull (hp : p.Spans l) (hq : q.Spans m) : (p.hull q).Spans (l ++ m) where
  covers r hr := by
    have hstart := Time.Instant.earlier_le p.start q.start
    have hfinish := Time.Instant.le_later p.finish q.finish
    simp only [Time.Instant.le_iff]
    obtain hr | hr := List.mem_append.1 hr
    · obtain ⟨hs, hf⟩ := hp.covers r hr
      exact ⟨hstart.1.trans (Time.Instant.le_iff.1 hs), (Time.Instant.le_iff.1 hf).trans hfinish.1⟩
    · obtain ⟨hs, hf⟩ := hq.covers r hr
      exact ⟨hstart.2.trans (Time.Instant.le_iff.1 hs), (Time.Instant.le_iff.1 hf).trans hfinish.2⟩
  start := exists_mem_append_eq (Time.Instant.earlier_eq_or _ _) hp.start hq.start
  finish := exists_mem_append_eq (Time.Instant.later_eq_or _ _) hp.finish hq.finish

theorem Spans.covers_of_perm (hp : p.Spans l) (hq : q.Spans m) (h : l.Perm m) :
    p.start.nanos ≤ q.start.nanos ∧ q.finish.nanos ≤ p.finish.nanos := by
  obtain ⟨r, hr, hstart⟩ := hq.start
  obtain ⟨r', hr', hfinish⟩ := hq.finish
  rw [← hstart, ← hfinish]
  exact ⟨Time.Instant.le_iff.1 (hp.covers r (h.mem_iff.2 hr)).1,
    Time.Instant.le_iff.1 (hp.covers r' (h.mem_iff.2 hr')).2⟩

theorem Spans.eq_of_perm (hp : p.Spans l) (hq : q.Spans m) (h : l.Perm m) : p = q := by
  obtain ⟨hs, hf⟩ := hp.covers_of_perm hq h
  obtain ⟨hs', hf'⟩ := hq.covers_of_perm hp h.symm
  cases p
  cases q
  cases Time.Instant.eq_of_nanos (le_antisymm hs hs')
  cases Time.Instant.eq_of_nanos (le_antisymm hf' hf)
  rfl

end Period

namespace Axis

/-- Neither bound is a NaN. -/
structure Numeric (x : Axis) : Prop where
  lower : x.lower.isNaN = false
  upper : x.upper.isNaN = false

/-- The least interval around the axes of a list. -/
structure Spans (x : Axis) (axes : List Axis) : Prop where
  covers : ∀ y ∈ axes, x.covers y = true
  lower : ∃ y ∈ axes, y.lower = x.lower
  upper : ∃ y ∈ axes, y.upper = x.upper

variable {x y z : Axis} {l m : List Axis}

theorem covers_iff : x.covers y = true ↔ x.lower ≤ y.lower ∧ y.upper ≤ x.upper := by
  simp [covers]

theorem covers_trans (h : x.covers y = true) (h' : y.covers z = true) : x.covers z = true := by
  rw [covers_iff] at *
  exact ⟨Number.le_trans h.1 h'.1, Number.le_trans h'.2 h.2⟩

theorem Numeric.covers_self (hx : x.Numeric) : x.covers x = true :=
  covers_iff.2 ⟨Number.le_rfl_of_isNaN hx.lower, Number.le_rfl_of_isNaN hx.upper⟩

theorem Numeric.hull_covers (hx : x.Numeric) (hy : y.Numeric) :
    (x.hull y).covers x = true ∧ (x.hull y).covers y = true := by
  have hlower := Number.lesser_le hx.lower hy.lower
  have hupper := Number.le_greater hx.upper hy.upper
  exact ⟨covers_iff.2 ⟨hlower.1, hupper.1⟩, covers_iff.2 ⟨hlower.2, hupper.2⟩⟩

theorem same_of_covers (hname : x.name = y.name) (h : x.covers y = true) (h' : y.covers x = true) :
    x.same y = true := by
  rw [covers_iff] at h h'
  simp [same, hname, Number.beq_of_le_of_le h.1 h'.1, Number.beq_of_le_of_le h'.2 h.2]

theorem Numeric.spans_singleton (hx : x.Numeric) : x.Spans [x] where
  covers y hy := by
    cases List.mem_singleton.1 hy
    exact hx.covers_self
  lower := ⟨x, List.mem_singleton_self x, rfl⟩
  upper := ⟨x, List.mem_singleton_self x, rfl⟩

theorem Spans.numeric (hx : x.Spans l) (hl : ∀ y ∈ l, y.Numeric) : x.Numeric := by
  obtain ⟨y, hy, hlower⟩ := hx.lower
  obtain ⟨z, hz, hupper⟩ := hx.upper
  exact ⟨hlower ▸ (hl y hy).lower, hupper ▸ (hl z hz).upper⟩

theorem Spans.hull (hx : x.Spans l) (hy : y.Spans m) (hnx : x.Numeric) (hny : y.Numeric) :
    (x.hull y).Spans (l ++ m) where
  covers z hz := by
    obtain ⟨hcx, hcy⟩ := hnx.hull_covers hny
    obtain hz | hz := List.mem_append.1 hz
    · exact covers_trans hcx (hx.covers z hz)
    · exact covers_trans hcy (hy.covers z hz)
  lower := exists_mem_append_eq (Number.lesser_eq_or _ _) hx.lower hy.lower
  upper := exists_mem_append_eq (Number.greater_eq_or _ _) hx.upper hy.upper

/-- What covers all axes of a list covers the least interval around them. -/
theorem Spans.covered (hx : x.Spans l) (h : ∀ y ∈ l, z.covers y = true) : z.covers x = true := by
  obtain ⟨y, hy, hlower⟩ := hx.lower
  obtain ⟨y', hy', hupper⟩ := hx.upper
  rw [covers_iff, ← hlower, ← hupper]
  exact ⟨(covers_iff.1 (h y hy)).1, (covers_iff.1 (h y' hy')).2⟩

end Axis

namespace Box

/-- No bound is a NaN. -/
def Numeric (b : Box) : Prop :=
  ∀ x ∈ b.axes, x.Numeric

theorem numeric_iff {b : Box} :
    b.Numeric ↔ ∀ x ∈ b.axes, x.lower.isNaN = false ∧ x.upper.isNaN = false :=
  forall₂_congr fun _ _ => ⟨fun h => ⟨h.lower, h.upper⟩, fun h => ⟨h.1, h.2⟩⟩

instance (b : Box) : Decidable b.Numeric :=
  decidable_of_iff _ numeric_iff.symm

/-- Axes that can be told apart by their names, with bounds that can be compared. -/
structure Regular (b : Box) : Prop where
  nodup : b.labels.Nodup
  numeric : b.Numeric

/-- The least box around the boxes of a list. -/
structure Spans (e : Box) (boxes : List Box) : Prop where
  nodup : e.labels.Nodup
  labels : ∀ b ∈ boxes, ∀ n, n ∈ b.labels ↔ n ∈ e.labels
  axes : ∀ x ∈ e.axes, x.Spans (boxes.filterMap fun b => b.axis? x.name)
  crs : ∀ c, e.crs = some c ↔ ∃ b ∈ boxes, b.crs = some c
  hasPeriod : e.period.isSome = true ↔ ∀ b ∈ boxes, b.period.isSome = true
  period : ∀ p, e.period = some p → p.Spans (boxes.filterMap Box.period)

/-- The same box, but for the order of the axes. -/
def SameUpToOrder (b c : Box) : Prop :=
  ∃ axes : List Axis, axes.Perm c.axes ∧ b.same { c with axes := axes } = true

variable {periods : Period → Prop} {a b c e f u : Box} {p : Period} {l m boxes : List Box}

theorem periodHull_eq_some_iff :
    periodHull b c = some p ↔
      ∃ q r, b.period = some q ∧ c.period = some r ∧ q.hull r = p := by
  unfold periodHull
  split
  next q r hq hr => simp [hq, hr]
  next h =>
    refine iff_of_false (by simp) ?_
    rintro ⟨q, r, hq, hr, -⟩
    exact h q r hq hr

theorem isSome_periodHull :
    (periodHull b c).isSome = true ↔ b.period.isSome = true ∧ c.period.isSome = true := by
  simp only [Option.isSome_iff_exists, periodHull_eq_some_iff]
  constructor
  · rintro ⟨-, q, r, hq, hr, -⟩
    exact ⟨⟨q, hq⟩, ⟨r, hr⟩⟩
  · rintro ⟨⟨q, hq⟩, ⟨r, hr⟩⟩
    exact ⟨_, q, r, hq, hr, rfl⟩

theorem Constructed.regular (hb : Constructed periods b) (hn : b.Numeric) : b.Regular :=
  ⟨hb.nodup_labels, hn⟩

theorem Regular.spans_singleton (hb : b.Regular) : b.Spans [b] where
  nodup := hb.nodup
  labels c hc n := by
    cases List.mem_singleton.1 hc
    exact Iff.rfl
  axes x hx := by
    have haxis : ([b].filterMap fun b => b.axis? x.name) = [x] := by simp [axis?_name hb.nodup hx]
    rw [haxis]
    exact (hb.numeric x hx).spans_singleton
  crs c := by simp
  hasPeriod := by simp
  period p hp := by
    have hperiods : [b].filterMap Box.period = [p] := by simp [hp]
    rw [hperiods]
    exact Period.spans_singleton p

namespace Spans

theorem ne_nil (h : e.Spans boxes) : boxes ≠ [] := by
  rintro rfl
  have hsome : e.period.isSome = true := h.hasPeriod.2 fun b hb => by cases hb
  obtain ⟨p, hp⟩ := Option.isSome_iff_exists.1 hsome
  obtain ⟨q, hq, -⟩ := (h.period p hp).start
  cases hq

theorem regular (h : e.Spans boxes) (hr : ∀ b ∈ boxes, b.Regular) : e.Regular := by
  refine ⟨h.nodup, fun x hx => (h.axes x hx).numeric fun y hy => ?_⟩
  obtain ⟨b, hb, hy⟩ := List.mem_filterMap.1 hy
  exact (hr b hb).numeric y (axis?_eq_some hy).1

/-- The union of the least boxes around two lists is the least box around both. -/
theorem union (he : e.Spans l) (hf : f.Spans m) (hre : e.Regular) (hrf : f.Regular)
    (h : e.union f = .ok u) : u.Spans (l ++ m) where
  nodup := by
    rw [labels_union h]
    exact he.nodup
  labels b hb n := by
    rw [labels_union h]
    obtain hb | hb := List.mem_append.1 hb
    · exact he.labels b hb n
    · exact (hf.labels b hb n).trans ((union_eq_ok_iff.1 h).1.labels n).symm
  axes z hz := by
    obtain ⟨x, hx, y, hy, hname, rfl⟩ := exists_hull_of_mem_union h hz
    have haxes := (he.axes x hx).hull (hf.axes y hy) (hre.numeric x hx) (hrf.numeric y hy)
    rw [hname, ← List.filterMap_append] at haxes
    exact haxes
  crs c := by
    obtain ⟨hef, rfl⟩ := union_eq_ok_iff.1 h
    simp only [List.mem_append, or_and_right, exists_or, ← he.crs, ← hf.crs, Option.or_eq_some_iff]
    constructor
    · rintro (hcrs | ⟨-, hcrs⟩)
      · exact .inl hcrs
      · exact .inr hcrs
    · rintro (hcrs | hcrs)
      · exact .inl hcrs
      · cases hm : e.crs with
        | none => exact .inr ⟨rfl, hcrs⟩
        | some m =>
            cases hef.crs m c hm hcrs
            exact .inl rfl
  hasPeriod := by
    obtain ⟨-, rfl⟩ := union_eq_ok_iff.1 h
    simp only [isSome_periodHull, he.hasPeriod, hf.hasPeriod, List.mem_append, or_imp, forall_and]
  period p hp := by
    obtain ⟨-, rfl⟩ := union_eq_ok_iff.1 h
    obtain ⟨q, r, hq, hr, rfl⟩ := periodHull_eq_some_iff.1 hp
    rw [List.filterMap_append]
    exact (he.period q hq).hull (hf.period r hr)

/-- A box can be compared with the least box around others exactly if it can with each of them. -/
theorem compatible_iff (h : e.Spans boxes) :
    e.Compatible c ↔ ∀ b ∈ boxes, b.Compatible c := by
  constructor
  · intro hc b hb
    exact ⟨fun n => (h.labels b hb n).trans (hc.labels n),
      fun m t hm ht => hc.crs m t ((h.crs m).2 ⟨b, hb, hm⟩) ht⟩
  · intro hall
    obtain ⟨b, hb⟩ := List.exists_mem_of_ne_nil boxes h.ne_nil
    refine ⟨fun n => (h.labels b hb n).symm.trans ((hall b hb).labels n), fun m t hm ht => ?_⟩
    obtain ⟨d, hd, hm⟩ := (h.crs m).1 hm
    exact (hall d hd).crs m t hm ht

/-- The least box around boxes contains each of them, leaving time aside. -/
theorem contains (h : e.Spans boxes) (hb : b ∈ boxes) (hnodup : b.labels.Nodup) :
    ({ e with period := none } : Box).contains b = .ok true := by
  refine (contains_eq_ok_true_iff hnodup).2 ⟨⟨fun n => (h.labels b hb n).symm, ?_⟩, ?_, ?_⟩
  · intro m t hm ht
    exact Option.some.inj (hm.symm.trans ((h.crs t).2 ⟨b, hb, ht⟩))
  · intro x hx y hy hname
    refine (h.axes x hx).covers y (List.mem_filterMap.2 ⟨b, hb, ?_⟩)
    rw [← hname, axis?_name hnodup hy]
  · rintro p q ⟨⟩

/-- A box that contains boxes contains the least box around them. -/
theorem contained (h : e.Spans boxes) (hnodup : ∀ b ∈ boxes, b.labels.Nodup)
    (hc : ∀ b ∈ boxes, c.contains b = .ok true) : c.contains e = .ok true := by
  have hall (b : Box) (hb : b ∈ boxes) := (contains_eq_ok_true_iff (hnodup b hb)).1 (hc b hb)
  refine (contains_eq_ok_true_iff h.nodup).2
    ⟨(h.compatible_iff.2 fun b hb => (hall b hb).1.symm).symm, ?_, ?_⟩
  · intro x hx z hz hname
    refine (h.axes z hz).covered fun y hy => ?_
    obtain ⟨b, hb, hy⟩ := List.mem_filterMap.1 hy
    obtain ⟨hy, hyname⟩ := axis?_eq_some hy
    exact (hall b hb).2.1 x hx y hy (hyname.trans hname)
  · intro p q hp hq
    have hlt {r : Period} (hr : r ∈ boxes.filterMap Box.period) : p.surrounds r = true := by
      obtain ⟨b, hb, hr⟩ := List.mem_filterMap.1 hr
      exact (hall b hb).2.2 p r hp hr
    obtain ⟨r, hr, hstart⟩ := (h.period q hq).start
    obtain ⟨r', hr', hfinish⟩ := (h.period q hq).finish
    rw [Period.surrounds, Bool.and_eq_true, ← hstart, ← hfinish]
    exact ⟨(Bool.and_eq_true _ _ ▸ hlt hr).1, (Bool.and_eq_true _ _ ▸ hlt hr').2⟩

/-- Axes of one name are the same on two boxes that span the same boxes. -/
theorem same_axes (he : e.Spans l) (hf : f.Spans m) (h : l.Perm m) {x y : Axis} (hx : x ∈ e.axes)
    (hy : y ∈ f.axes) (hname : y.name = x.name) : x.same y = true := by
  have hy' : y.Spans (m.filterMap fun b => b.axis? x.name) := hname ▸ hf.axes y hy
  have hperm := h.filterMap fun b => b.axis? x.name
  refine Axis.same_of_covers hname.symm ?_ ?_
  · exact hy'.covered fun z hz => (he.axes x hx).covers z (hperm.mem_iff.2 hz)
  · exact (he.axes x hx).covered fun z hz => hy'.covers z (hperm.mem_iff.1 hz)

theorem crs_eq (he : e.Spans l) (hf : f.Spans m) (h : l.Perm m) : e.crs = f.crs := by
  ext c
  rw [he.crs, hf.crs]
  exact exists_congr fun b => and_congr_left fun _ => h.mem_iff

theorem period_eq (he : e.Spans l) (hf : f.Spans m) (h : l.Perm m) : e.period = f.period := by
  have hsome : e.period.isSome = true ↔ f.period.isSome = true := by
    rw [he.hasPeriod, hf.hasPeriod]
    exact forall_congr' fun b => imp_congr_left h.mem_iff
  cases hp : e.period with
  | none =>
      cases hq : f.period with
      | none => rfl
      | some q => simp [hp, hq] at hsome
  | some p =>
      obtain ⟨q, hq⟩ := Option.isSome_iff_exists.1 (hsome.1 (by simp [hp]))
      rw [hq, (he.period p hp).eq_of_perm (hf.period q hq) (h.filterMap Box.period)]

/-- Two boxes that span the same boxes are the same when the axes of the one are put into the order
of the other. -/
theorem same_paired (he : e.Spans l) (hf : f.Spans m) (h : l.Perm m) :
    e.same { f with axes := (paired e f).map Prod.snd } = true ∧
      ((paired e f).map Prod.snd).Perm f.axes := by
  have hlabels (n : String) : n ∈ e.labels ↔ n ∈ f.labels := by
    obtain ⟨b, hb⟩ := List.exists_mem_of_ne_nil l he.ne_nil
    exact (he.labels b hb n).symm.trans (hf.labels b (h.mem_iff.1 hb) n)
  have haxes : e.axes = (paired e f).map Prod.fst := (map_fst_paired fun n => (hlabels n).1).symm
  have hzip : e.axes.zip ((paired e f).map Prod.snd) = paired e f := by
    calc e.axes.zip ((paired e f).map Prod.snd)
        = ((paired e f).map Prod.fst).zip ((paired e f).map Prod.snd) := by rw [← haxes]
      _ = paired e f := by rw [← List.zip_of_prod rfl rfl]
  have hlength : e.axes.length = ((paired e f).map Prod.snd).length := by
    rw [haxes, List.length_map, List.length_map]
  refine ⟨?_, map_snd_paired_perm he.nodup hf.nodup hlabels⟩
  have hall : ((paired e f).all fun i => i.1.same i.2) = true :=
    (all_paired_iff hf.nodup).2 fun x hx y hy hname => he.same_axes hf h hx hy hname
  simp only [same, hzip, hlength, hall, he.crs_eq hf h, he.period_eq hf h, beq_self_eq_true,
    Bool.and_self]

/-- Two boxes that span the same boxes differ in no more than the order of their axes. -/
theorem sameUpToOrder (he : e.Spans l) (hf : f.Spans m) (h : l.Perm m) : e.SameUpToOrder f :=
  ⟨_, (he.same_paired hf h).2, (he.same_paired hf h).1⟩

theorem same_of_labels_eq (he : e.Spans l) (hf : f.Spans m) (h : l.Perm m)
    (hlabels : e.labels = f.labels) : e.same f = true := by
  have hsnd : (paired e f).map Prod.snd = f.axes := by
    rw [map_snd_paired, hlabels, filterMap_axis? hf.nodup]
  have hsame := (he.same_paired hf h).1
  rwa [hsnd] at hsame

end Spans

namespace Regular

/-- The union of two boxes is the least box around them. -/
theorem spans_union (ha : a.Regular) (hb : b.Regular) (h : a.union b = .ok u) : u.Spans [a, b] :=
  ha.spans_singleton.union hb.spans_singleton ha hb h

/-- A period does not contain itself, but a box without a period contains what it spans. -/
theorem union_contains (ha : a.Regular) (hb : b.Regular) (h : a.union b = .ok u)
    (hperiod : a.period = none ∨ b.period = none) :
    u.contains a = .ok true ∧ u.contains b = .ok true := by
  have hspans := ha.spans_union hb h
  have hnone : u.period = none := by
    obtain ⟨-, rfl⟩ := union_eq_ok_iff.1 h
    obtain hperiod | hperiod := hperiod <;> simp [periodHull, hperiod]
  have hu : u = { u with period := none } := by rw [← hnone]
  rw [hu]
  exact ⟨hspans.contains (by simp) ha.nodup, hspans.contains (by simp) hb.nodup⟩

theorem contains_union (ha : a.Regular) (hb : b.Regular) (h : a.union b = .ok u)
    (hca : c.contains a = .ok true) (hcb : c.contains b = .ok true) : c.contains u = .ok true :=
  (ha.spans_union hb h).contained (by simp [ha.nodup, hb.nodup]) (by simp [hca, hcb])

theorem union_comm (ha : a.Regular) (hb : b.Regular) :
    Together SameUpToOrder (a.union b) (b.union a) := by
  refine .of_iff ?_ fun u v hu hv => ?_
  · rw [exists_union_iff, exists_union_iff, compatible_comm]
  · exact (ha.spans_union hb hu).sameUpToOrder (hb.spans_union ha hv) (.swap b a [])

/-- Either way of grouping three boxes succeeds exactly if each two of them can be compared. -/
theorem exists_union_assoc (ha : a.Regular) (hb : b.Regular) (hc : c.Regular) :
    (∃ u, a.union b >>= (·.union c) = .ok u) ↔ ∃ u, b.union c >>= a.union = .ok u := by
  have hleft (u : Box) (hu : a.union b = .ok u) :
      (∃ v, u.union c = .ok v) ↔ a.Compatible c ∧ b.Compatible c := by
    rw [exists_union_iff, (ha.spans_union hb hu).compatible_iff]
    simp
  have hright (u : Box) (hu : b.union c = .ok u) :
      (∃ v, a.union u = .ok v) ↔ a.Compatible b ∧ a.Compatible c := by
    rw [exists_union_iff, compatible_comm, (hb.spans_union hc hu).compatible_iff]
    simp [compatible_comm (c := a)]
  rw [exists_bind_iff hleft, exists_bind_iff hright, exists_union_iff, exists_union_iff]
  tauto

theorem union_assoc (ha : a.Regular) (hb : b.Regular) (hc : c.Regular) :
    Together (fun u v => u.same v = true) (a.union b >>= (·.union c)) (b.union c >>= a.union) := by
  refine .of_iff (ha.exists_union_assoc hb hc) fun u v hu hv => ?_
  obtain ⟨ab, hab, hu⟩ := bind_eq_ok_iff.1 hu
  obtain ⟨bc, hbc, hv⟩ := bind_eq_ok_iff.1 hv
  have hsab := ha.spans_union hb hab
  have hsbc := hb.spans_union hc hbc
  have hsu : u.Spans [a, b, c] :=
    hsab.union hc.spans_singleton (hsab.regular (by simp [ha, hb])) hc hu
  have hsv : v.Spans [a, b, c] :=
    ha.spans_singleton.union hsbc ha (hsbc.regular (by simp [hb, hc])) hv
  refine hsu.same_of_labels_eq hsv (.refl _) ?_
  rw [labels_union hu, labels_union hab, labels_union hv]

end Regular

/-- A union is the least box that contains both boxes, except that a period does not contain itself.
The other way round it differs in no more than the order of its axes, and unions of three boxes do
not depend on how they are grouped, neither in that they exist nor in what they are. -/
theorem union_least (ha : Constructed periods a) (hb : Constructed periods b)
    (hc : Constructed periods c) (hna : a.Numeric) (hnb : b.Numeric) (hnc : c.Numeric) :
    (∀ u, a.union b = .ok u →
      (a.period = none ∨ b.period = none →
        u.contains a = .ok true ∧ u.contains b = .ok true) ∧
      (c.contains a = .ok true → c.contains b = .ok true → c.contains u = .ok true)) ∧
    Together SameUpToOrder (a.union b) (b.union a) ∧
    Together (fun u v => u.same v = true) (a.union b >>= (·.union c)) (b.union c >>= a.union) := by
  have hra := ha.regular hna
  have hrb := hb.regular hnb
  refine ⟨fun u hu => ⟨hra.union_contains hrb hu, hra.contains_union hrb hu⟩,
    hra.union_comm hrb, hra.union_assoc hrb (hc.regular hnc)⟩

/-- The Atlantic and its seas, during two seconds. -/
def atlantic : Box where
  axes := [⟨"Long", -80, 20⟩, ⟨"Lat", 5, 65⟩]
  period := some ⟨⟨500000000, by decide, by decide⟩, ⟨2500000000, by decide, by decide⟩⟩
  crs := some "EPSG:4326"

theorem constructed_atlantic : Constructed Period.Constructed atlantic := by
  refine .of_nodup (by decide) ?_
  rintro p ⟨⟩
  exact Period.constructed_iff.2 rfl

/-- Boxes with their axes in different orders, of which one has no period and no reference system. -/
theorem union_least_atlantic :
    ∃ u, channel.union biscay = .ok u ∧ u.contains channel = .ok true ∧
      u.contains biscay = .ok true ∧ atlantic.contains u = .ok true ∧
      Together SameUpToOrder (channel.union biscay) (biscay.union channel) ∧
      Together (fun u v => u.same v = true) (channel.union biscay >>= (·.union atlantic))
        (biscay.union atlantic >>= channel.union) := by
  have hcompatible : channel.Compatible biscay := by decide
  obtain ⟨u, hu⟩ := exists_union_iff.2 hcompatible
  obtain ⟨h, hcomm, hassoc⟩ := union_least constructed_channel constructed_biscay
    constructed_atlantic (by decide) (by decide) (by decide)
  obtain ⟨hmembers, hleast⟩ := h u hu
  obtain ⟨hchannel, hbiscay⟩ := hmembers (.inr rfl)
  exact ⟨u, hu, hchannel, hbiscay, hleast (by decide) (by decide), hcomm, hassoc⟩

end Box

end CoverageAccess
