import CoverageAccess.Catalog.Basic
import CoverageAccess.Proofs.Box.Constructed
import CoverageAccess.Proofs.Catalog.Edition
import CoverageAccess.Proofs.Picking
/-!
# What becomes of a listing

Which listings are accepted (`Listing.IsSound`), and what is then served of their entries. A coverage
is served as its entry gives it (`CoverageEntry.Gives`), but for a position in time without the other
one: the box has a period if both positions are given, and otherwise a position is passed over unread.
A series is served as the last entry with its identifier gives it, whatever earlier ones say. So
everything that is listed is served exactly if no position stands alone and the entries of a series
agree (`Catalog.listing_served`).
-/

namespace CoverageAccess

namespace BoxEntry

open Time

/-- Both positions of the entry are given, and they are read as the ends of the period. -/
def HasPeriod (e : BoxEntry) (p : Period) : Prop :=
  ∃ first last, e.start = some first ∧ e.finish = some last ∧
    parsePosition first = .ok p.start ∧ parsePosition last = .ok p.finish ∧
      p.start.le p.finish = true

/-- The corners have a value for every axis, no axis is repeated, and if both positions are given then
they have a period between them. -/
structure IsSound (e : BoxEntry) : Prop where
  lower : e.labels.length = e.lower.length
  upper : e.labels.length = e.upper.length
  nodup : e.labels.Nodup
  period : e.start.isSome = true → e.finish.isSome = true → ∃ p, e.HasPeriod p

/-- The box is what the entry says. -/
structure Gives (e : BoxEntry) (b : Box) : Prop where
  labels : b.labels = e.labels
  lower : b.lowerCorner = e.lower
  upper : b.upperCorner = e.upper
  crs : b.crs = e.crs
  period : ∀ p, b.period = some p ↔ e.HasPeriod p

variable {e : BoxEntry} {b d : Box} {p : Period} {first last : String}

/-- The box with the period of the entry, if both positions are given. -/
def timed (e : BoxEntry) (d : Box) : Except Fault Box :=
  match e.start, e.finish with
  | some first, some last => do
    let start ← parsePosition first
    let finish ← parsePosition last
    return d.withPeriod (← Period.make start finish)
  | _, _ => return d

theorem box_eq (e : BoxEntry) :
    e.box = (Box.ofCorners e.labels e.lower e.upper e.crs).mapError Box.Refusal.fault >>= e.timed :=
  rfl

theorem hasPeriod_iff (hfirst : e.start = some first) (hlast : e.finish = some last) :
    e.HasPeriod p ↔ parsePosition first = .ok p.start ∧ parsePosition last = .ok p.finish ∧
      p.start.le p.finish = true := by
  constructor
  · rintro ⟨s, f, hs, hf, hread⟩
    cases hfirst.symm.trans hs
    cases hlast.symm.trans hf
    exact hread
  · intro hread
    exact ⟨first, last, hfirst, hlast, hread⟩

theorem HasPeriod.isSome (h : e.HasPeriod p) : e.start.isSome = true ∧ e.finish.isSome = true := by
  obtain ⟨first, last, hfirst, hlast, -⟩ := h
  rw [hfirst, hlast]
  exact ⟨rfl, rfl⟩

/-- An entry has one period at most. -/
theorem HasPeriod.unique {q : Period} (hp : e.HasPeriod p) (hq : e.HasPeriod q) : p = q := by
  obtain ⟨first, last, hfirst, hlast, hstart, hfinish, -⟩ := hp
  obtain ⟨hstart', hfinish', -⟩ := (hasPeriod_iff hfirst hlast).1 hq
  cases p
  cases q
  cases hstart.symm.trans hstart'
  cases hfinish.symm.trans hfinish'
  rfl

theorem HasPeriod.some_eq_iff {q : Period} (hp : e.HasPeriod p) :
    some p = some q ↔ e.HasPeriod q := by
  rw [Option.some.injEq]
  exact ⟨fun h => h ▸ hp, hp.unique⟩

theorem timed_eq_ok_of_isSome (hfirst : e.start = some first) (hlast : e.finish = some last) :
    e.timed d = .ok b ↔ ∃ p, e.HasPeriod p ∧ b = d.withPeriod p := by
  rw [timed, hfirst, hlast]
  simp only [hasPeriod_iff hfirst hlast, bind_eq_ok_iff, Period.make_eq_ok_iff, pure_eq_ok_iff]
  constructor
  · rintro ⟨start, hstart, finish, hfinish, p, ⟨hle, rfl⟩, rfl⟩
    exact ⟨_, ⟨hstart, hfinish, hle⟩, rfl⟩
  · rintro ⟨p, ⟨hstart, hfinish, hle⟩, rfl⟩
    exact ⟨_, hstart, _, hfinish, p, ⟨hle, rfl⟩, rfl⟩

theorem timed_of_not_isSome (h : ¬(e.start.isSome = true ∧ e.finish.isSome = true)) :
    e.timed d = .ok d := by
  unfold timed
  split
  next first last hfirst hlast => exact absurd (by simp [hfirst, hlast]) h
  next => rfl

theorem timed_eq_ok_iff (hd : d.period = none) : e.timed d = .ok b ↔
    (e.start.isSome = true → e.finish.isSome = true → ∃ p, e.HasPeriod p) ∧
      b.axes = d.axes ∧ b.crs = d.crs ∧ ∀ p, b.period = some p ↔ e.HasPeriod p := by
  by_cases hboth : e.start.isSome = true ∧ e.finish.isSome = true
  · obtain ⟨first, hfirst⟩ := Option.isSome_iff_exists.1 hboth.1
    obtain ⟨last, hlast⟩ := Option.isSome_iff_exists.1 hboth.2
    rw [timed_eq_ok_of_isSome hfirst hlast]
    constructor
    · rintro ⟨p, hp, rfl⟩
      exact ⟨fun _ _ => ⟨p, hp⟩, rfl, rfl, fun q => hp.some_eq_iff⟩
    · rintro ⟨hexists, haxes, hcrs, hperiod⟩
      obtain ⟨p, hp⟩ := hexists hboth.1 hboth.2
      refine ⟨p, hp, ?_⟩
      rw [Box.withPeriod, ← haxes, ← hcrs, ← (hperiod p).2 hp]
  · have hnone (p : Period) : ¬e.HasPeriod p := fun hp => hboth hp.isSome
    simp only [timed_of_not_isSome hboth, hnone, iff_false, ← ne_eq,
      ← Option.eq_none_iff_forall_ne_some, Except.ok.injEq]
    constructor
    · rintro rfl
      exact ⟨fun hs hf => absurd ⟨hs, hf⟩ hboth, rfl, rfl, hd⟩
    · rintro ⟨-, haxes, hcrs, hperiod⟩
      cases b
      cases d
      cases haxes
      cases hcrs
      cases hperiod.trans hd.symm
      rfl

/-- An entry has a box exactly if it is sound, and then the one that it gives. -/
theorem box_eq_ok_iff : e.box = .ok b ↔ e.IsSound ∧ e.Gives b := by
  rw [box_eq, bind_eq_ok_iff]
  simp only [mapError_eq_ok_iff, Box.ofCorners_eq_ok_iff]
  constructor
  · rintro ⟨d, ⟨hlower, hupper, hnodup, rfl⟩, h⟩
    obtain ⟨hperiod, haxes, hcrs, hb⟩ := (timed_eq_ok_iff rfl).1 h
    obtain ⟨hlabels, hlower', hupper'⟩ := (Box.axes_eq_zipAxes_iff hlower hupper).1 haxes
    exact ⟨⟨hlower, hupper, hnodup, hperiod⟩, ⟨hlabels, hlower', hupper', hcrs, hb⟩⟩
  · rintro ⟨hsound, hgives⟩
    have haxes := (Box.axes_eq_zipAxes_iff hsound.lower hsound.upper).2
      ⟨hgives.labels, hgives.lower, hgives.upper⟩
    exact ⟨_, ⟨hsound.lower, hsound.upper, hsound.nodup, rfl⟩,
      (timed_eq_ok_iff rfl).2 ⟨hsound.period, haxes, hgives.crs, hgives.period⟩⟩

theorem exists_period (e : BoxEntry) : ∃ x : Option Period, ∀ p, x = some p ↔ e.HasPeriod p := by
  by_cases h : ∃ p, e.HasPeriod p
  · obtain ⟨p, hp⟩ := h
    exact ⟨some p, fun q => hp.some_eq_iff⟩
  · exact ⟨none, fun p => iff_of_false nofun fun hp => h ⟨p, hp⟩⟩

theorem exists_box_iff : (∃ b, e.box = .ok b) ↔ e.IsSound := by
  simp only [box_eq_ok_iff, exists_and_left]
  refine ⟨And.left, fun h => ⟨h, ?_⟩⟩
  obtain ⟨x, hx⟩ := e.exists_period
  obtain ⟨hlabels, hlower, hupper⟩ :=
    (Box.axes_eq_zipAxes_iff (b := ⟨_, x, e.crs⟩) h.lower h.upper).1 rfl
  exact ⟨⟨_, x, e.crs⟩, hlabels, hlower, hupper, rfl, hx⟩

end BoxEntry

namespace CoverageEntry

/-- The names of an entry differ, and its box is sound. -/
structure IsSound (e : CoverageEntry) : Prop where
  coordinates : (e.coordinates.map Coordinate.name).Nodup
  fields : (e.fields.map Field.name).Nodup
  box : ∀ given, e.box = some given → given.IsSound

/-- The coverage is what the entry says, and has a box exactly if the entry gives one. -/
structure Gives (e : CoverageEntry) (c : Coverage) : Prop where
  id : c.id = e.id
  coordinates : c.coordinates = e.coordinates
  fields : c.fields = e.fields
  nativeFormat : c.nativeFormat = e.nativeFormat
  datasetUrl : c.datasetUrl = some e.datasetUrl
  box : Option.Rel BoxEntry.Gives e.box c.box

variable {e : CoverageEntry} {c : Coverage}

theorem Gives.exists_box (h : e.Gives c) {given : BoxEntry} (hgiven : e.box = some given) :
    ∃ b, c.box = some b ∧ given.Gives b := by
  have hbox := h.box
  rw [hgiven] at hbox
  generalize c.box = box at hbox
  cases hbox with
  | some hb => exact ⟨_, rfl, hb⟩

/-- An entry has a coverage exactly if it is sound, and then the one that it gives. -/
theorem coverage_eq_ok_iff : e.coverage = .ok c ↔ e.IsSound ∧ e.Gives c := by
  rw [CoverageEntry.coverage, bind_eq_ok_iff]
  simp only [mapError_eq_ok_iff, Coverage.make_eq_ok_iff]
  constructor
  · rintro ⟨d, ⟨hcoordinates, hfields, rfl⟩, h⟩
    split at h
    next given hgiven =>
      obtain ⟨b, hb, h⟩ := bind_eq_ok_iff.1 h
      cases pure_eq_ok_iff.1 h
      obtain ⟨hsound, hgives⟩ := BoxEntry.box_eq_ok_iff.1 hb
      refine ⟨⟨hcoordinates, hfields, ?_⟩, ⟨rfl, rfl, rfl, rfl, rfl, hgiven ▸ .some hgives⟩⟩
      rintro _ hgiven'
      cases hgiven.symm.trans hgiven'
      exact hsound
    next hnone =>
      cases pure_eq_ok_iff.1 h
      refine ⟨⟨hcoordinates, hfields, ?_⟩, ⟨rfl, rfl, rfl, rfl, rfl, hnone ▸ .none⟩⟩
      rintro _ hgiven
      cases hnone.symm.trans hgiven
  · rintro ⟨hsound, hgives⟩
    refine ⟨_, ⟨hsound.coordinates, hsound.fields, rfl⟩, ?_⟩
    obtain ⟨id, coordinates, fields, nativeFormat, box, datasetUrl⟩ := c
    obtain ⟨rfl, rfl, rfl, rfl, rfl, hbox⟩ := hgives
    split
    next given hgiven =>
      rw [hgiven] at hbox
      cases hbox with
      | some hb =>
          rw [BoxEntry.box_eq_ok_iff.2 ⟨hsound.box given hgiven, hb⟩]
          rfl
    next hnone =>
      rw [hnone] at hbox
      cases hbox
      rfl

theorem exists_coverage_iff : (∃ c, e.coverage = .ok c) ↔ e.IsSound := by
  constructor
  · rintro ⟨c, hc⟩
    exact (coverage_eq_ok_iff.1 hc).1
  · intro h
    obtain ⟨box, hbox⟩ : ∃ box, Option.Rel BoxEntry.Gives e.box box := by
      cases hgiven : e.box with
      | none => exact ⟨none, .none⟩
      | some given =>
          obtain ⟨b, hb⟩ := BoxEntry.exists_box_iff.2 (h.box given hgiven)
          exact ⟨some b, .some (BoxEntry.box_eq_ok_iff.1 hb).2⟩
    exact ⟨⟨e.id, e.coordinates, e.fields, e.nativeFormat, box, some e.datasetUrl⟩,
      coverage_eq_ok_iff.2 ⟨h, rfl, rfl, rfl, rfl, rfl, hbox⟩⟩

end CoverageEntry

/-- The entries are sound, no coverage is listed twice, and the members of series are listed. -/
structure Listing.IsSound (l : Listing) : Prop where
  entries : ∀ entry ∈ l.coverages, entry.IsSound
  ids : (l.coverages.map CoverageEntry.id).Nodup
  members : ∀ entry ∈ l.series, ∀ m ∈ entry.members, m ∈ l.coverages.map CoverageEntry.id

/-- No position in time is given without the other one, and entries of one series agree. -/
structure Listing.IsConsistent (l : Listing) : Prop where
  positions : ∀ entry ∈ l.coverages, ∀ given, entry.box = some given →
    (given.start.isSome = true ↔ given.finish.isSome = true)
  series : ∀ entry ∈ l.series, ∀ other ∈ l.series, entry.id = other.id →
    entry.members = other.members

theorem Table.contains_insert_eq_false_iff {α : Type} {t : Table α} {j k : String} {v : α} :
    (t.insert k v).contains j = false ↔ j ≠ k ∧ t.contains j = false := by
  rw [Table.contains, Table.contains, Table.get?_insert]
  split
  next h => simp [h]
  next h => simp [h]

namespace Edition

open Catalog

variable {path : String} {coverages : Table Coverage} {t u : Table (List String)}
  {es : List SeriesEntry} {l : Listing} {e : Edition}

/-- Entries are entered one by one if they are sound and their identifiers are new. -/
theorem exists_enterCoverages_iff {t : Table Coverage} {es : List CoverageEntry} :
    (∃ u, enterCoverages path t es = .ok u) ↔
      (∀ entry ∈ es, entry.IsSound) ∧ (es.map CoverageEntry.id).Nodup ∧
        ∀ entry ∈ es, t.contains entry.id = false := by
  induction es generalizing t with
  | nil => simp [enterCoverages]
  | cons entry es ih =>
      rw [enterCoverages, exists_bind_iff (p := t.contains entry.id = false ∧
        (∀ other ∈ es, other.IsSound) ∧ (es.map CoverageEntry.id).Nodup ∧
          ∀ other ∈ es, other.id ≠ entry.id ∧ t.contains other.id = false)]
      · simp only [mapError_eq_ok_iff, CoverageEntry.exists_coverage_iff, List.forall_mem_cons,
          List.map_cons, List.nodup_cons, List.mem_map]
        constructor
        · rintro ⟨hentry, hfree, hsound, hnodup, hnew⟩
          refine ⟨⟨hentry, hsound⟩, ⟨?_, hnodup⟩, hfree, fun other hother => (hnew other hother).2⟩
          rintro ⟨other, hother, hid⟩
          exact (hnew other hother).1 hid
        · rintro ⟨⟨hentry, hsound⟩, ⟨hnot, hnodup⟩, hfree, hnew⟩
          exact ⟨hentry, hfree, hsound, hnodup, fun other hother =>
            ⟨fun hid => hnot ⟨other, hother, hid⟩, hnew other hother⟩⟩
      · intro c _
        split
        next h => simp [h]
        next h => simp [ih, Table.contains_insert_eq_false_iff, h]

/-- The series that are entered, where the later of two with one identifier counts. -/
theorem enterSeries_eq_ok_iff : enterSeries path coverages t es = .ok u ↔
    (∀ entry ∈ es, ∀ m ∈ entry.members, coverages.contains m = true) ∧
      u = es.foldl (fun t entry => t.insert entry.id entry.members) t := by
  induction es generalizing t with
  | nil =>
      rw [enterSeries, Except.ok.injEq]
      exact ⟨fun h => ⟨by simp, h.symm⟩, fun h => h.2.symm⟩
  | cons entry es ih =>
      rw [enterSeries, List.forall_mem_cons, List.foldl_cons, and_assoc, ← ih]
      split
      next m hm =>
        have hmissing : ¬∀ m ∈ entry.members, coverages.contains m = true := fun h => by
          have hfound := List.find?_some hm
          rw [h m (List.mem_of_find?_eq_some hm)] at hfound
          cases hfound
        refine iff_of_false (fun h => ?_) fun h => hmissing h.1
        cases h
      next hnone =>
        refine (and_iff_right ?_).symm
        simpa using hnone

theorem contains_of_enterCoverages {es : List CoverageEntry} {m : String}
    (h : enterCoverages path ∅ es = .ok coverages) :
    coverages.contains m = true ↔ m ∈ es.map CoverageEntry.id := by
  obtain ⟨hsound, -⟩ := exists_enterCoverages_iff.1 ⟨coverages, h⟩
  rw [Table.contains, Option.isSome_iff_exists, List.mem_map]
  simp only [get?_of_enterCoverages h, Table.get?_empty, reduceCtorEq, false_or]
  constructor
  · rintro ⟨c, entry, hentry, hid, -⟩
    exact ⟨entry, hentry, hid⟩
  · rintro ⟨entry, hentry, hid⟩
    obtain ⟨c, hc⟩ := CoverageEntry.exists_coverage_iff.2 (hsound entry hentry)
    exact ⟨c, entry, hentry, hid, hc⟩

theorem exists_ofListing_iff : (∃ e, ofListing path l = .ok e) ↔ l.IsSound := by
  have hparts : l.IsSound ↔ ((∀ entry ∈ l.coverages, entry.IsSound) ∧
      (l.coverages.map CoverageEntry.id).Nodup) ∧
        ∀ entry ∈ l.series, ∀ m ∈ entry.members, m ∈ l.coverages.map CoverageEntry.id :=
    ⟨fun h => ⟨⟨h.entries, h.ids⟩, h.members⟩, fun ⟨⟨he, hi⟩, hm⟩ => ⟨he, hi, hm⟩⟩
  have hrest (coverages : Table Coverage) (h : enterCoverages path ∅ l.coverages = .ok coverages) :
      (∃ e, (enterSeries path coverages ∅ l.series >>= fun series =>
        pure (Edition.mk coverages series)) = .ok e) ↔
      ∀ entry ∈ l.series, ∀ m ∈ entry.members, m ∈ l.coverages.map CoverageEntry.id := by
    simp only [exists_bind_pure_iff, enterSeries_eq_ok_iff, exists_and_left, exists_eq, and_true,
      contains_of_enterCoverages h]
  rw [hparts, ofListing, exists_bind_iff hrest, exists_enterCoverages_iff]
  simp [Table.contains]

theorem series_of_ofListing (h : ofListing path l = .ok e) :
    e.series = Table.ofList (l.series.map fun entry => (entry.id, entry.members)) := by
  obtain ⟨coverages, -, h⟩ := bind_eq_ok_iff.1 h
  obtain ⟨series, hseries, h⟩ := bind_eq_ok_iff.1 h
  cases pure_eq_ok_iff.1 h
  rw [(enterSeries_eq_ok_iff.1 hseries).2, Table.ofList, List.foldl_map]

/-- Of several series entries with one identifier, the last one counts. -/
theorem get?_series_of_ofListing (h : ofListing path l = .ok e) {id : String} {ids : List String} :
    e.series.get? id = some ids ↔
      ∃ entry, IsLast (fun r => r.id = id) l.series entry ∧ entry.members = ids := by
  have hlast (r : SeriesEntry) : ((fun x : String × List String => x.1 == id) ∘
      fun entry : SeriesEntry => (entry.id, entry.members)) r = true ↔ r.id = id := beq_iff_eq
  rw [series_of_ofListing h, Table.get?_ofList, ← List.map_reverse, List.find?_map, Option.map_map,
    Option.map_eq_some_iff]
  exact exists_congr fun r => and_congr_left fun _ =>
    (find?_eq_some_iff_isFirst hlast).trans isFirst_reverse_iff

/-- Every coverage that is listed is there, as its entry gives it. -/
theorem coverage_of_ofListing (h : ofListing path l = .ok e) {entry : CoverageEntry}
    (hentry : entry ∈ l.coverages) : ∃ c, e.coverage entry.id = .ok c ∧ entry.Gives c := by
  obtain ⟨c, hc⟩ := CoverageEntry.exists_coverage_iff.2
    ((exists_ofListing_iff.1 ⟨e, h⟩).entries entry hentry)
  obtain ⟨coverages, hcoverages, h⟩ := bind_eq_ok_iff.1 h
  obtain ⟨series, -, h⟩ := bind_eq_ok_iff.1 h
  cases pure_eq_ok_iff.1 h
  have hfound := (get?_of_enterCoverages hcoverages).2 (.inr ⟨entry, hentry, rfl, hc⟩)
  exact ⟨c, coverage_eq_ok_iff.2 hfound, (CoverageEntry.coverage_eq_ok_iff.1 hc).2⟩

end Edition

namespace Catalog

/-- The catalog, brought up to date with its file, holds the edition. -/
def HoldsEdition (s : Surroundings) (c : Catalog) (e : Edition) : Prop :=
  ∃ l, c = .listed l ∧ (l.refresh s.file).edition = e

/-- The catalog answers the coverage that the entry gives. -/
def ServesCoverage (s : Surroundings) (c : Catalog) (entry : CoverageEntry) : Prop :=
  ∃ d, (c.coverage s entry.id).1 = .ok d ∧ entry.Gives d

/-- The catalog answers the series with these members, in order, each as it is answered by itself. -/
def ServesSeries (s : Surroundings) (c : Catalog) (id : String) (members : List String) : Prop :=
  ∃ r, (c.series s id).1 = .ok r ∧ r.id = id ∧ r.memberIds = members ∧
    ∀ d ∈ r.members, (c.coverage s d.id).1 = .ok d

/-- Nothing of the listing is left out of the answers. -/
structure ServesAll (s : Surroundings) (c : Catalog) (l : Listing) : Prop where
  coverages : ∀ entry ∈ l.coverages, ServesCoverage s c entry
  periods : ∀ entry ∈ l.coverages, ∀ given, entry.box = some given →
    given.start.isSome = true ∨ given.finish.isSome = true →
      ∃ d b p, (c.coverage s entry.id).1 = .ok d ∧ d.box = some b ∧ b.period = some p ∧
        given.HasPeriod p
  series : ∀ entry ∈ l.series, ServesSeries s c entry.id entry.members

variable {s : Surroundings} {c : Catalog} {e : Edition} {path id : String} {l : Listing}

theorem HoldsEdition.coverage_eq (h : HoldsEdition s c e) (id : String) :
    (c.coverage s id).1 = e.coverage id := by
  obtain ⟨l, rfl, rfl⟩ := h
  rfl

theorem HoldsEdition.series_eq (h : HoldsEdition s c e) (id : String) :
    (c.series s id).1 = e.seriesNamed id := by
  obtain ⟨l, rfl, rfl⟩ := h
  rfl

theorem HoldsEdition.servesCoverage (h : HoldsEdition s c e) (he : Edition.ofListing path l = .ok e)
    {entry : CoverageEntry} (hentry : entry ∈ l.coverages) : ServesCoverage s c entry := by
  rw [ServesCoverage, h.coverage_eq]
  exact Edition.coverage_of_ofListing he hentry

theorem HoldsEdition.servesSeries (h : HoldsEdition s c e) (he : Edition.ofListing path l = .ok e)
    {entry : SeriesEntry} (hlast : IsLast (fun r => r.id = id) l.series entry) :
    ServesSeries s c id entry.members := by
  have hids := (Edition.get?_series_of_ofListing he).2 ⟨entry, hlast, rfl⟩
  simp only [ServesSeries, h.series_eq, h.coverage_eq]
  exact (Edition.isWhole_of_ofListing he).seriesNamed_eq_ok hids

theorem ServesSeries.unique {members others : List String} (h : ServesSeries s c id members)
    (h' : ServesSeries s c id others) : members = others := by
  obtain ⟨r, hr, -, rfl, -⟩ := h
  obtain ⟨r', hr', -, rfl, -⟩ := h'
  cases hr.symm.trans hr'
  rfl

/-- A listing is accepted exactly if it is sound. Every coverage of an accepted listing is then
answered as its entry gives it, and every series as its last entry gives it. Nothing is left out
exactly if no position in time stands alone and the entries of a series agree. -/
theorem listing_served (path : String) (l : Listing) :
    ((∃ e, Edition.ofListing path l = .ok e) ↔ l.IsSound) ∧
    ∀ e s c, Edition.ofListing path l = .ok e → HoldsEdition s c e →
      (∀ entry ∈ l.coverages, ServesCoverage s c entry) ∧
      (∀ id entry, IsLast (fun r => r.id = id) l.series entry → ServesSeries s c id entry.members) ∧
      (ServesAll s c l ↔ l.IsConsistent) := by
  refine ⟨Edition.exists_ofListing_iff, fun e s c he hc => ⟨fun entry => hc.servesCoverage he,
    fun id entry => hc.servesSeries he, fun hall => ⟨?_, ?_⟩, fun hl => ⟨?_, ?_, ?_⟩⟩⟩
  · intro entry hentry given hgiven
    constructor
    · intro hstart
      obtain ⟨-, -, p, -, -, -, hp⟩ := hall.periods entry hentry given hgiven (.inl hstart)
      exact hp.isSome.2
    · intro hfinish
      obtain ⟨-, -, p, -, -, -, hp⟩ := hall.periods entry hentry given hgiven (.inr hfinish)
      exact hp.isSome.1
  · intro entry hentry other hother hid
    exact (hall.series entry hentry).unique (hid ▸ hall.series other hother)
  · exact fun entry => hc.servesCoverage he
  · intro entry hentry given hgiven hsome
    have hsound := ((Edition.exists_ofListing_iff.1 ⟨e, he⟩).entries entry hentry).box given hgiven
    have hboth := hl.positions entry hentry given hgiven
    obtain ⟨p, hp⟩ := hsound.period (hsome.elim id hboth.2) (hsome.elim hboth.1 id)
    obtain ⟨d, hd, hgives⟩ := hc.servesCoverage he hentry
    obtain ⟨b, hb, hbox⟩ := hgives.exists_box hgiven
    exact ⟨d, b, p, hd, hb, (hbox.period p).2 hp, hp⟩
  · intro entry hentry
    obtain ⟨last, hlast⟩ := exists_isLast (p := fun r : SeriesEntry => r.id = entry.id) hentry rfl
    rw [hl.series entry hentry last hlast.mem hlast.holds.symm]
    exact hc.servesSeries he hlast

/-- A listing with one coverage, whose period begins at a known time and ends as given, and with a
series that is listed once with the coverage and again with the given members. -/
def buoys (finish : Option String) (again : List String) : Listing where
  coverages :=
    [⟨"buoy", "http://localhost/buoy", "netcdf", [], [],
      some ⟨none, ["latitude"], [-80], [80], some "2002-07-01", finish⟩⟩]
  series := [⟨"all", ["buoy"]⟩, ⟨"all", again⟩]

theorem isSound_buoys {finish : Option String} {again : List String}
    (hfinish : finish = none ∨ finish = some "2002-07-10") (hagain : ∀ m ∈ again, m = "buoy") :
    (buoys finish again).IsSound := by
  refine ⟨?_, List.nodup_singleton _, by simpa [buoys] using hagain⟩
  rintro entry hentry
  cases List.mem_singleton.1 hentry
  refine ⟨.nil, .nil, ?_⟩
  rintro _ ⟨⟩
  refine ⟨rfl, rfl, List.nodup_singleton _, ?_⟩
  rcases hfinish with rfl | rfl
  · exact fun _ h => absurd h (by decide)
  · intro _ _
    exact ⟨⟨⟨1025481600000000000, by decide, by decide⟩, ⟨1026259200000000000, by decide, by decide⟩⟩,
      "2002-07-01", "2002-07-10", rfl, rfl, rfl, rfl, by decide⟩

/-- A catalog whose file is gone keeps its edition. -/
theorem holdsEdition_of_absent (path : String) (e : Edition) (stamp : Nat)
    (source : Metadata.Source) :
    HoldsEdition ⟨.error .absent, source⟩ (.listed ⟨path, e, stamp⟩) e :=
  ⟨_, rfl, rfl⟩

/-- A position in time that stands alone and the earlier one of two series are left out, although the
listing is accepted. -/
theorem listing_served_buoys :
    (∃ s c, ServesAll s c (buoys (some "2002-07-10") ["buoy"])) ∧
    ∃ e s c, Edition.ofListing "coverages.yaml" (buoys none []) = .ok e ∧ HoldsEdition s c e ∧
      ServesSeries s c "all" [] ∧ ¬ServesAll s c (buoys none []) := by
  constructor
  · obtain ⟨hiff, hserved⟩ :=
      listing_served "coverages.yaml" (buoys (some "2002-07-10") ["buoy"])
    obtain ⟨e, he⟩ := hiff.2 (isSound_buoys (.inr rfl) (by simp))
    obtain ⟨-, -, hall⟩ :=
      hserved e _ _ he (holdsEdition_of_absent "coverages.yaml" e 1 Metadata.offline)
    refine ⟨_, _, hall.2 ⟨?_, by simp [buoys]⟩⟩
    rintro entry hentry
    cases List.mem_singleton.1 hentry
    rintro _ ⟨⟩
    exact iff_of_true rfl rfl
  · obtain ⟨hiff, hserved⟩ := listing_served "coverages.yaml" (buoys none [])
    obtain ⟨e, he⟩ := hiff.2 (isSound_buoys (.inl rfl) (by simp))
    have hkept := holdsEdition_of_absent "coverages.yaml" e 1 Metadata.offline
    obtain ⟨-, hseries, hall⟩ := hserved e _ _ he hkept
    refine ⟨e, _, _, he, hkept, ?_, fun h => ?_⟩
    · exact hseries "all" ⟨"all", []⟩ ⟨[⟨"all", ["buoy"]⟩], [], rfl, rfl, by simp⟩
    · have hmembers := (hall.1 h).series ⟨"all", ["buoy"]⟩ (by simp [buoys]) ⟨"all", []⟩
        (by simp [buoys]) rfl
      cases hmembers

end Catalog

end CoverageAccess
