import Mathlib.Data.List.Pairwise
import CoverageAccess.Proofs.Box.Union
import CoverageAccess.Series
/-!
# Envelopes of series

The envelope of a series is found member by member, but what it is can be said of all members at
once: it exists if the boxes of each two members can be compared, and then it is the least box around
them. So the order of the members plays no part. `envelope_spans` puts this together.
-/

namespace CoverageAccess

namespace Series

open Box

/-- The boxes of the members that have one, in order. -/
def boxes (s : Series) : List Box :=
  s.members.filterMap Coverage.box

variable {periods : Period → Prop} {c e u : Box} {l m : List Box}

/-- What has been found so far spans one box more after each step. -/
theorem spans_union_append (he : e.Spans l) (hl : ∀ b ∈ l, b.Regular) (hc : c.Regular)
    (h : e.union c = .ok u) : u.Spans (l ++ [c]) ∧ ∀ b ∈ l ++ [c], b.Regular :=
  ⟨he.union hc.spans_singleton (he.regular hl) hc h,
    List.forall_mem_append.2 ⟨hl, List.forall_mem_singleton.2 hc⟩⟩

/-- Boxes can be added, one after the other, to one that spans others exactly if each of them can be
compared with each of the others and with each other. -/
theorem exists_hullFrom_iff (he : e.Spans l) (hl : ∀ b ∈ l, b.Regular) (hm : ∀ b ∈ m, b.Regular) :
    (∃ u, hullFrom e m = .ok u) ↔
      (∀ b ∈ l, ∀ c ∈ m, b.Compatible c) ∧ m.Pairwise Compatible := by
  -- on the boxes still to come, for any start: it gains a reference system or loses its period
  induction m generalizing e l with
  | nil => simp [hullFrom]
  | cons c m ih =>
      obtain ⟨hc, hm⟩ := List.forall_mem_cons.1 hm
      have hrest (u : Box) (hu : e.union c = .ok u) :
          (∃ v, hullFrom u m = .ok v) ↔
            (∀ b ∈ l ++ [c], ∀ d ∈ m, b.Compatible d) ∧ m.Pairwise Compatible := by
        obtain ⟨hspans, hlc⟩ := spans_union_append he hl hc hu
        exact ih hspans hlc hm
      rw [hullFrom, exists_bind_iff hrest, exists_union_iff, he.compatible_iff]
      simp only [List.forall_mem_append, List.forall_mem_singleton, List.forall_mem_cons,
        List.pairwise_cons, imp_and, forall_and, and_assoc]

theorem spans_hullFrom (he : e.Spans l) (hl : ∀ b ∈ l, b.Regular) (hm : ∀ b ∈ m, b.Regular)
    (h : hullFrom e m = .ok u) : u.Spans (l ++ m) := by
  induction m generalizing e l with
  | nil =>
      cases h
      simpa using he
  | cons c m ih =>
      obtain ⟨hc, hm⟩ := List.forall_mem_cons.1 hm
      obtain ⟨f, hf, h⟩ := bind_eq_ok_iff.1 h
      obtain ⟨hspans, hlc⟩ := spans_union_append he hl hc hf
      simpa using ih hspans hlc hm h

theorem hull_eq_none_iff : hull l = .ok none ↔ l = [] := by
  cases l with
  | nil => simp [hull]
  | cons b l => simp [hull]

theorem exists_hull_iff (hl : ∀ b ∈ l, b.Regular) :
    (∃ r, hull l = .ok r) ↔ l.Pairwise Compatible := by
  cases l with
  | nil => simp [hull]
  | cons b l =>
      obtain ⟨hb, hl⟩ := List.forall_mem_cons.1 hl
      have hfrom := exists_hullFrom_iff hb.spans_singleton (List.forall_mem_singleton.2 hb) hl
      simpa [hull, List.pairwise_cons] using hfrom

theorem spans_hull (hl : ∀ b ∈ l, b.Regular) (h : hull l = .ok (some e)) : e.Spans l := by
  cases l with
  | nil => cases h
  | cons b l =>
      obtain ⟨hb, hl⟩ := List.forall_mem_cons.1 hl
      obtain ⟨u, hu, he⟩ := map_eq_ok_iff.1 h
      cases he
      exact spans_hullFrom hb.spans_singleton (List.forall_mem_singleton.2 hb) hl hu

theorem pairwise_compatible_iff :
    l.Pairwise Compatible ↔ ∀ b ∈ l, ∀ c ∈ l, b.Compatible c := by
  constructor
  · intro h b hb c hc
    exact h.forall_of_forall (fun b _ => Compatible.refl b) hb hc
  · exact List.pairwise_of_forall_mem_list

/-- The boxes of a list span the same box in any order, or none. -/
theorem hull_perm (hl : ∀ b ∈ l, b.Regular) (h : l.Perm m) :
    Together (Option.Rel SameUpToOrder) (hull l) (hull m) := by
  have hm : ∀ b ∈ m, b.Regular := fun b hb => hl b (h.mem_iff.2 hb)
  refine .of_iff ?_ fun r r' hr hr' => ?_
  · rw [exists_hull_iff hl, exists_hull_iff hm]
    exact h.pairwise_iff Compatible.symm
  · cases r with
    | none =>
        cases hull_eq_none_iff.1 hr
        cases h.symm.eq_nil
        cases hr'
        exact .none
    | some e =>
        cases r' with
        | none =>
            cases hull_eq_none_iff.1 hr'
            cases h.eq_nil
            cases hr
        | some f => exact .some ((spans_hull hl hr).sameUpToOrder (spans_hull hm hr') h)

theorem boxes_eq_nil_iff {s : Series} : s.boxes = [] ↔ ∀ c ∈ s.members, c.box = none :=
  List.filterMap_eq_nil_iff

/-- There is an envelope exactly if the boxes of any two members can be compared. It is the least box
around them, if there are any, and so contains each of them when time is left aside. The same members
in any other order have the same envelope but for the order of its axes, or have none either. -/
theorem envelope_spans {s : Series} (hc : ∀ b ∈ s.boxes, Constructed periods b)
    (hn : ∀ b ∈ s.boxes, b.Numeric) :
    ((∃ r, s.envelope = .ok r) ↔ ∀ b ∈ s.boxes, ∀ c ∈ s.boxes, b.Compatible c) ∧
      (s.envelope = .ok none ↔ ∀ c ∈ s.members, c.box = none) ∧
      (∀ e, s.envelope = .ok (some e) →
        e.Spans s.boxes ∧
          ∀ b ∈ s.boxes, ({ e with period := none } : Box).contains b = .ok true) ∧
      ∀ t : Series, t.members.Perm s.members →
        Together (Option.Rel SameUpToOrder) s.envelope t.envelope := by
  have hr : ∀ b ∈ s.boxes, b.Regular := fun b hb => (hc b hb).regular (hn b hb)
  refine ⟨(exists_hull_iff hr).trans pairwise_compatible_iff,
    hull_eq_none_iff.trans boxes_eq_nil_iff, fun e he => ?_, fun t ht => ?_⟩
  · have hspans := spans_hull hr he
    exact ⟨hspans, fun b hb => hspans.contains hb (hr b hb).nodup⟩
  · exact hull_perm hr (ht.symm.filterMap Coverage.box)

/-- The seas, with a member between them that has no box. -/
def seas : Series where
  id := "seas"
  members := [⟨"channel", [], [], "netcdf", some channel, none⟩,
    ⟨"unplaced", [], [], "netcdf", none, none⟩, ⟨"biscay", [], [], "netcdf", some biscay, none⟩,
    ⟨"atlantic", [], [], "netcdf", some atlantic, none⟩]

/-- The second of three boxes lists its axes the other way round, has no period and names no reference
system. -/
theorem envelope_spans_seas :
    (∃ e, seas.envelope = .ok (some e) ∧ e.Spans [channel, biscay, atlantic] ∧
      ({ e with period := none } : Box).contains channel = .ok true) ∧
      Together (Option.Rel SameUpToOrder) seas.envelope
        ({ seas with members := seas.members.reverse } : Series).envelope := by
  have hconstructed : ∀ b ∈ seas.boxes, Constructed Period.Constructed b := by
    simp [boxes, seas, constructed_channel, constructed_biscay, constructed_atlantic]
  obtain ⟨hexists, hnone, hsome, hperm⟩ := envelope_spans hconstructed (by decide)
  refine ⟨?_, hperm _ (List.reverse_perm _)⟩
  obtain ⟨r, hr⟩ := hexists.2 (by decide)
  cases r with
  | none => exact absurd (hnone.1 hr) (by decide)
  | some e =>
      obtain ⟨hspans, hcontains⟩ := hsome e hr
      exact ⟨e, hr, hspans, hcontains channel (by simp [boxes, seas])⟩

end Series

end CoverageAccess
