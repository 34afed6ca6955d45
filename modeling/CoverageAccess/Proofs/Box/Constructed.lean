import CoverageAccess.Box.Envelope
import CoverageAccess.Box.Query
import CoverageAccess.Proofs.Box.Pairing
/-!
# Boxes that are made

A box is `Constructed` if the constructors and operations made it, from periods of a given kind. Its
axis names differ from each other, whatever was done to it, and if it was made from periods that do
not end before they start then its own period does not either. What this means for two boxes that are
compared is `Constructed.nodup_and_paired`.
-/

namespace CoverageAccess

namespace Period

/-- Made by the constructor, which checks the order of the ends. -/
def Constructed (p : Period) : Prop :=
  ∃ start finish, make start finish = .ok p

variable {p q : Period} {start finish : Time.Instant}

theorem make_eq_ok_iff :
    make start finish = .ok p ↔ start.le finish = true ∧ p = ⟨start, finish⟩ := by
  have hle : start.le finish = true ↔ ¬finish.lt start = true := by
    rw [Time.Instant.le_iff, Time.Instant.lt_iff, Int.not_lt]
  rw [hle]
  unfold make
  split
  next h => simp [h]
  next h => simp [h, eq_comm]

theorem constructed_iff : p.Constructed ↔ p.start.le p.finish = true := by
  constructor
  · rintro ⟨start, finish, h⟩
    obtain ⟨hle, rfl⟩ := make_eq_ok_iff.1 h
    exact hle
  · intro h
    exact ⟨p.start, p.finish, make_eq_ok_iff.2 ⟨h, rfl⟩⟩

theorem Constructed.hull (hp : p.Constructed) (q : Period) : (p.hull q).Constructed := by
  simp only [constructed_iff, Time.Instant.le_iff] at *
  calc (p.start.earlier q.start).nanos
      ≤ p.start.nanos := (Time.Instant.earlier_le _ _).1
    _ ≤ p.finish.nanos := hp
    _ ≤ (p.finish.later q.finish).nanos := (Time.Instant.le_later _ _).1

end Period

namespace Box

/-- Made by the constructors and operations, from periods of a kind. -/
inductive Constructed (periods : Period → Prop) : Box → Prop
  | ofAxes {axes : List Axis} {crs : Option String} {b : Box} (h : ofAxes axes crs = .ok b) :
    Constructed periods b
  | ofCorners {labels : List String} {lower upper : List Float} {crs : Option String} {b : Box}
    (h : ofCorners labels lower upper crs = .ok b) : Constructed periods b
  | ofQuery {text : String} {b : Box} (h : ofQuery text = .ok b) : Constructed periods b
  | ofEnvelope {e : Markup.Element} {b : Box} (h : ofEnvelope e = .ok b) : Constructed periods b
  | withLabels {b c : Box} {labels : List String} (hb : Constructed periods b)
    (h : b.withLabels labels = .ok c) : Constructed periods c
  | withPeriod {b : Box} {p : Period} (hb : Constructed periods b) (hp : periods p) :
    Constructed periods (b.withPeriod p)
  | union {b c u : Box} (hb : Constructed periods b) (hc : Constructed periods c)
    (h : b.union c = .ok u) : Constructed periods u

variable {periods : Period → Prop} {a b c : Box} {e : Markup.Element} {p : Period}

section Corners

variable {labels : List String} {lower upper : List Float} {crs : Option String}

/-- The corners of a box have its axes between them. -/
theorem zipAxes_corners (b : Box) : zipAxes b.labels b.lowerCorner b.upperCorner = b.axes := by
  rw [zipAxes, Box.labels, lowerCorner, upperCorner]
  induction b.axes with
  | nil => rfl
  | cons x xs ih => exact congrArg (x :: ·) ih

/-- The axes between two corners have the given names and the corners. -/
theorem axes_eq_zipAxes_iff (hlower : labels.length = lower.length)
    (hupper : labels.length = upper.length) :
    b.axes = zipAxes labels lower upper ↔
      b.labels = labels ∧ b.lowerCorner = lower ∧ b.upperCorner = upper := by
  have hcorners : lower.length = upper.length := hlower.symm.trans hupper
  have hnames : (labels.zip (lower.zip upper)).map Prod.fst = labels :=
    List.map_fst_zip (by simp [hlower, hcorners])
  have hbounds : (labels.zip (lower.zip upper)).map Prod.snd = lower.zip upper := by
    refine List.map_snd_zip ?_
    rw [List.length_zip, hlower]
    exact Nat.min_le_left _ _
  constructor
  · intro h
    rw [Box.labels, lowerCorner, upperCorner, h, zipAxes, List.map_map, List.map_map, List.map_map]
    refine ⟨hnames, ?_, ?_⟩
    · calc (labels.zip (lower.zip upper)).map (Prod.fst ∘ Prod.snd)
          = (lower.zip upper).map Prod.fst := by rw [← List.map_map, hbounds]
        _ = lower := List.map_fst_zip (Nat.le_of_eq hcorners)
    · calc (labels.zip (lower.zip upper)).map (Prod.snd ∘ Prod.snd)
          = (lower.zip upper).map Prod.snd := by rw [← List.map_map, hbounds]
        _ = upper := List.map_snd_zip (Nat.le_of_eq hcorners.symm)
  · rintro ⟨rfl, rfl, rfl⟩
    rw [zipAxes_corners]

theorem ofCorners_eq_ok_iff : ofCorners labels lower upper crs = .ok b ↔
    labels.length = lower.length ∧ labels.length = upper.length ∧ labels.Nodup ∧
      b = ⟨zipAxes labels lower upper, none, crs⟩ := by
  unfold ofCorners
  split
  next h =>
    have hnames : (zipAxes labels lower upper).map Axis.name = labels :=
      ((axes_eq_zipAxes_iff (b := ⟨_, none, crs⟩) h.1 h.2).1 rfl).1
    rw [ofAxes_eq_ok_iff, hnames]
    exact ⟨fun hb => ⟨h.1, h.2, hb⟩, fun hb => hb.2.2⟩
  next h => exact iff_of_false nofun fun hb => h ⟨hb.1, hb.2.1⟩

theorem ofCorners_eq_ok (h : ofCorners labels lower upper crs = .ok b) :
    ∃ axes, ofAxes axes crs = .ok b := by
  unfold ofCorners at h
  split at h
  · exact ⟨_, h⟩
  · cases h

end Corners

theorem nodup_labels_of_ofAxes {axes : List Axis} {crs : Option String}
    (h : ofAxes axes crs = .ok b) : b.labels.Nodup := by
  obtain ⟨hnodup, rfl⟩ := ofAxes_eq_ok_iff.1 h
  exact hnodup

theorem period_of_ofAxes {axes : List Axis} {crs : Option String} (h : ofAxes axes crs = .ok b) :
    b.period = none := by
  obtain ⟨-, rfl⟩ := ofAxes_eq_ok_iff.1 h
  rfl

theorem ofQuery_eq_ok {text : String} (h : ofQuery text = .ok b) :
    ∃ axes crs, ofAxes axes crs = .ok b := by
  unfold ofQuery at h
  dsimp only at h
  split at h
  · cases h
  · split at h
    · cases h
    · obtain ⟨values, -, h⟩ := bind_eq_ok_iff.1 h
      exact ⟨_, _, h⟩

/-- The period of an envelope is made in order. -/
theorem constructed_of_envelopePeriod (h : envelopePeriod e = .ok (some p)) : p.Constructed := by
  unfold envelopePeriod at h
  split at h
  next =>
    obtain ⟨start, -, h⟩ := bind_eq_ok_iff.1 h
    obtain ⟨finish, -, h⟩ := bind_eq_ok_iff.1 h
    obtain ⟨q, hq, h⟩ := bind_eq_ok_iff.1 h
    cases pure_eq_ok_iff.1 h
    exact ⟨start, finish, hq⟩
  all_goals cases h

theorem ofEnvelope_eq_ok (h : ofEnvelope e = .ok b) :
    ∃ axes crs d, ofAxes axes crs = .ok d ∧ b.axes = d.axes ∧
      ∀ p, b.period = some p → p.Constructed := by
  unfold ofEnvelope at h
  split at h
  next => cases h
  next e _ =>
    obtain ⟨⟨labels, lower, upper⟩, -, h⟩ := bind_eq_ok_iff.1 h
    obtain ⟨d, hd, h⟩ := bind_eq_ok_iff.1 h
    obtain ⟨period, hperiod, h⟩ := bind_eq_ok_iff.1 h
    cases pure_eq_ok_iff.1 h
    obtain ⟨axes, haxes⟩ := ofCorners_eq_ok (mapError_eq_ok_iff.1 hd)
    refine ⟨axes, _, d, haxes, rfl, ?_⟩
    rintro p rfl
    exact constructed_of_envelopePeriod hperiod

theorem withLabels_eq_ok {labels : List String} (h : b.withLabels labels = .ok c) :
    ∃ axes crs d, ofAxes axes crs = .ok d ∧ c.axes = d.axes ∧ c.period = b.period := by
  unfold withLabels at h
  split at h
  · obtain ⟨d, hd, h⟩ := bind_eq_ok_iff.1 h
    cases pure_eq_ok_iff.1 h
    exact ⟨_, _, d, hd, rfl, rfl⟩
  · cases h

namespace Constructed

/-- The axis names of a box differ from each other. -/
theorem nodup_labels (hb : Constructed periods b) : b.labels.Nodup := by
  induction hb with
  | ofAxes h => exact nodup_labels_of_ofAxes h
  | ofCorners h =>
      obtain ⟨axes, h⟩ := ofCorners_eq_ok h
      exact nodup_labels_of_ofAxes h
  | ofQuery h =>
      obtain ⟨axes, crs, h⟩ := ofQuery_eq_ok h
      exact nodup_labels_of_ofAxes h
  | ofEnvelope h =>
      obtain ⟨axes, crs, d, hd, haxes, -⟩ := ofEnvelope_eq_ok h
      rw [labels, haxes]
      exact nodup_labels_of_ofAxes hd
  | withLabels _ h _ =>
      obtain ⟨axes, crs, d, hd, haxes, -⟩ := withLabels_eq_ok h
      rw [labels, haxes]
      exact nodup_labels_of_ofAxes hd
  | withPeriod _ _ ih => exact ih
  | union _ _ h ihb _ =>
      -- the union is built without the check of the names, but it has those of the first box
      rw [labels_union h]
      exact ihb

/-- Every box whose axis names differ can be made. -/
theorem of_nodup (h : b.labels.Nodup) (hp : ∀ p, b.period = some p → periods p) :
    Constructed periods b := by
  obtain ⟨axes, period, crs⟩ := b
  have hb : Constructed periods ⟨axes, none, crs⟩ := .ofAxes (ofAxes_eq_ok_iff.2 ⟨h, rfl⟩)
  cases period with
  | none => exact hb
  | some p => exact hb.withPeriod (hp p rfl)

/-- The period of a box is in order if it was made from periods in order. -/
theorem constructed_period (hb : Constructed Period.Constructed b) :
    ∀ p, b.period = some p → p.Constructed := by
  induction hb with
  | ofAxes h => simp [period_of_ofAxes h]
  | ofCorners h =>
      obtain ⟨axes, h⟩ := ofCorners_eq_ok h
      simp [period_of_ofAxes h]
  | ofQuery h =>
      obtain ⟨axes, crs, h⟩ := ofQuery_eq_ok h
      simp [period_of_ofAxes h]
  | ofEnvelope h =>
      obtain ⟨-, -, -, -, -, hperiod⟩ := ofEnvelope_eq_ok h
      exact hperiod
  | withLabels _ h ih =>
      obtain ⟨-, -, -, -, -, hperiod⟩ := withLabels_eq_ok h
      rw [hperiod]
      exact ih
  | withPeriod _ hp _ =>
      rintro p ⟨⟩
      exact hp
  | union _ _ h ihb _ =>
      obtain ⟨-, rfl⟩ := union_eq_ok_iff.1 h
      intro p hp
      dsimp only [periodHull] at hp
      split at hp
      next q r hq _ =>
        cases hp
        exact (ihb q hq).hull r
      next => cases hp

/-- A box has every axis name once and its period does not end before it starts. So two boxes that
can be compared are compared on every axis of either of them once, their union has the axes of the
first in their order, and it does not matter which of them is asked whether they intersect. -/
theorem nodup_and_paired (ha : Constructed Period.Constructed a) :
    a.labels.Nodup ∧ (∀ p, a.period = some p → p.start.le p.finish = true) ∧
      ∀ b, Constructed Period.Constructed b →
        (conflict a b = none →
          (paired a b).map Prod.fst = a.axes ∧ ((paired a b).map Prod.snd).Perm b.axes ∧
            (∀ e ∈ paired a b, e.1.name = e.2.name) ∧
            ∃ u, a.union b = .ok u ∧ u.labels = a.labels) ∧
        Together Eq (a.intersects b) (b.intersects a) := by
  have hnodup := ha.nodup_labels
  refine ⟨hnodup, fun p hp => Period.constructed_iff.1 (ha.constructed_period p hp), ?_⟩
  intro b hb
  refine ⟨fun h => ?_, intersects_comm hnodup hb.nodup_labels⟩
  have hab : a.Compatible b := conflict_eq_none_iff.1 h
  refine ⟨map_fst_paired fun n => (hab.labels n).1,
    map_snd_paired_perm hnodup hb.nodup_labels hab.labels, ?_, ?_⟩
  · rintro ⟨x, y⟩ hxy
    exact ((mem_paired_iff hb.nodup_labels).1 hxy).2.2.symm
  · obtain ⟨u, hu⟩ := exists_union_iff.2 hab
    exact ⟨u, hu, labels_union hu⟩

end Constructed

/-- The English Channel during a second. -/
def channel : Box where
  axes := [⟨"Lat", 48, 51⟩, ⟨"Long", -6, 2⟩]
  period := some ⟨⟨1000000000, by decide, by decide⟩, ⟨2000000000, by decide, by decide⟩⟩
  crs := some "EPSG:4326"

/-- The Bay of Biscay, longitude first and without a reference system. -/
def biscay : Box where
  axes := [⟨"Long", -10, -1⟩, ⟨"Lat", 43, 48.5⟩]
  period := none
  crs := none

theorem constructed_channel : Constructed Period.Constructed channel := by
  refine .of_nodup (by decide) ?_
  rintro p ⟨⟩
  exact Period.constructed_iff.2 rfl

theorem constructed_biscay : Constructed Period.Constructed biscay :=
  .of_nodup (by decide) fun _ hp => by cases hp

/-- Boxes with their axes in different orders. -/
theorem nodup_and_paired_channel_biscay :
    channel.labels.Nodup ∧ channel.labels ≠ biscay.labels ∧ conflict channel biscay = none ∧
      (paired channel biscay).map Prod.fst = channel.axes ∧
      ((paired channel biscay).map Prod.snd).Perm biscay.axes ∧
      Together Eq (channel.intersects biscay) (biscay.intersects channel) := by
  have hconflict : conflict channel biscay = none := by decide
  obtain ⟨hnodup, -, h⟩ := constructed_channel.nodup_and_paired
  obtain ⟨hpaired, hintersects⟩ := h biscay constructed_biscay
  obtain ⟨hfst, hsnd, -, -⟩ := hpaired hconflict
  exact ⟨hnodup, by decide, hconflict, hfst, hsnd, hintersects⟩

end Box

end CoverageAccess
