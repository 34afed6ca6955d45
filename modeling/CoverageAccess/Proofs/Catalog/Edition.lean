import CoverageAccess.Catalog.Edition
import CoverageAccess.Proofs.Outcome
/-!
# Whole editions

What the editions of listings have in common: coverages are filed under their own identifiers, and
the members of series are coverages of the same edition (`IsWhole`). So a series of a whole edition is
always answered, with the coverages that are listed for it (`IsWhole.seriesNamed_eq_ok`).
-/

namespace CoverageAccess

/-- The coverage of an entry is what the entry says, but for its box. -/
theorem CoverageEntry.coverage_eq_ok {e : CoverageEntry} {c : Coverage} (h : e.coverage = .ok c) :
    c.id = e.id ∧ c.coordinates = e.coordinates ∧ c.fields = e.fields ∧
      c.nativeFormat = e.nativeFormat ∧ c.datasetUrl = some e.datasetUrl := by
  obtain ⟨d, hd, h⟩ := bind_eq_ok_iff.1 h
  obtain ⟨-, -, rfl⟩ := Coverage.make_eq_ok_iff.1 (mapError_eq_ok_iff.1 hd)
  dsimp only at h
  split at h
  · obtain ⟨b, -, h⟩ := bind_eq_ok_iff.1 h
    cases pure_eq_ok_iff.1 h
    exact ⟨rfl, rfl, rfl, rfl, rfl⟩
  · cases pure_eq_ok_iff.1 h
    exact ⟨rfl, rfl, rfl, rfl, rfl⟩

namespace Edition

open Catalog

/-- Coverages are filed under their own identifiers, and the members of series are among them. -/
structure IsWhole (e : Edition) : Prop where
  ids : ∀ id c, e.coverages.get? id = some c → c.id = id
  members : ∀ id ids, e.series.get? id = some ids → ∀ m ∈ ids, (e.coverages.get? m).isSome = true

variable {path id : String}

section Entering

/-- The coverages are those that were there and those of the entries. -/
theorem get?_of_enterCoverages {t u : Table Coverage} {es : List CoverageEntry} {c : Coverage}
    (h : enterCoverages path t es = .ok u) :
    u.get? id = some c ↔ t.get? id = some c ∨ ∃ e ∈ es, e.id = id ∧ e.coverage = .ok c := by
  induction es generalizing t with
  | nil =>
      cases h
      simp
  | cons e es ih =>
      obtain ⟨d, hd, h⟩ := bind_eq_ok_iff.1 h
      rw [mapError_eq_ok_iff] at hd
      split at h
      next => cases h
      next hnew =>
        have hfree : t.get? e.id = none := by simpa [Table.contains] using hnew
        simp only [ih h, Table.get?_insert, List.mem_cons, exists_eq_or_imp, hd, ← or_assoc]
        refine or_congr_left ?_
        split
        next hid => simp [hid, hfree]
        next hid => simp [Ne.symm hid]

/-- The series are those that were there and some of the entries, whose members are coverages. -/
theorem get?_of_enterSeries {coverages : Table Coverage} {t u : Table (List String)}
    {es : List SeriesEntry} {ids : List String} (h : enterSeries path coverages t es = .ok u)
    (hid : u.get? id = some ids) :
    t.get? id = some ids ∨
      ⟨id, ids⟩ ∈ es ∧ ∀ m ∈ ids, (coverages.get? m).isSome = true := by
  induction es generalizing t with
  | nil =>
      cases h
      exact .inl hid
  | cons e es ih =>
      rw [enterSeries] at h
      split at h
      next => cases h
      next hknown =>
        rcases ih h with hfound | ⟨hmem, hmembers⟩
        · rw [Table.get?_insert] at hfound
          split at hfound
          next heq =>
            cases hfound
            refine .inr ⟨heq ▸ List.mem_cons_self, fun m hm => ?_⟩
            have hcontains : ¬(!coverages.contains m) = true := List.find?_eq_none.1 hknown m hm
            rwa [Bool.not_eq_true, Bool.not_eq_false'] at hcontains
          next => exact .inl hfound
        · exact .inr ⟨List.mem_cons_of_mem e hmem, hmembers⟩

/-- The edition of a listing is whole. -/
theorem isWhole_of_ofListing {l : Listing} {e : Edition} (h : ofListing path l = .ok e) :
    e.IsWhole := by
  obtain ⟨coverages, hcoverages, h⟩ := bind_eq_ok_iff.1 h
  obtain ⟨series, hseries, h⟩ := bind_eq_ok_iff.1 h
  cases pure_eq_ok_iff.1 h
  constructor
  · intro id c hc
    rcases (get?_of_enterCoverages hcoverages).1 hc with hnone | ⟨entry, -, rfl, hentry⟩
    · cases hnone
    · exact (CoverageEntry.coverage_eq_ok hentry).1
  · intro id ids hids
    rcases get?_of_enterSeries hseries hids with hnone | ⟨-, hmembers⟩
    · cases hnone
    · exact hmembers

end Entering

section LookUps

variable {e : Edition} {ids : List String}

theorem coverage_eq_ok_iff {c : Coverage} :
    e.coverage id = .ok c ↔ e.coverages.get? id = some c := by
  unfold coverage
  split
  next d hd => simp [hd]
  next hd => simp [hd]

/-- What has no coverage is not there, and no other fault is answered. -/
theorem coverage_eq_error {f : Fault} (h : e.coverage id = .error f) : f = noCoverage id := by
  unfold coverage at h
  split at h
  next => cases h
  next =>
    cases h
    rfl

/-- A dataset is located exactly if its coverage is described together with an address, whatever the
fault of a missing address is. -/
theorem bind_datasetUrl_eq_ok_iff {x : Except Fault Coverage} {f : Fault} {u : String} :
    (x >>= fun c => match c.datasetUrl with
      | some url => pure url
      | none => .error f) = .ok u ↔ ∃ c, x = .ok c ∧ c.datasetUrl = some u := by
  rw [bind_eq_ok_iff]
  refine exists_congr fun c => and_congr_right fun _ => ?_
  cases c.datasetUrl with
  | none => simp
  | some url => simp [pure_eq_ok_iff]

theorem datasetUrl_eq_ok_iff {u : String} :
    e.datasetUrl id = .ok u ↔ ∃ c, e.coverage id = .ok c ∧ c.datasetUrl = some u :=
  bind_datasetUrl_eq_ok_iff

/-- A coverage of a whole edition has the identifier that it is asked for by. -/
theorem IsWhole.id_of_coverage_eq_ok (he : e.IsWhole) {c : Coverage} (h : e.coverage id = .ok c) :
    c.id = id :=
  he.ids id c (coverage_eq_ok_iff.1 h)

/-- Coverages that are there are answered all together, in order. -/
theorem IsWhole.coveragesOf_eq_ok (he : e.IsWhole)
    (hids : ∀ m ∈ ids, (e.coverages.get? m).isSome = true) :
    ∃ cs, e.coveragesOf ids = .ok cs ∧ cs.map Coverage.id = ids ∧
      ∀ c ∈ cs, e.coverage c.id = .ok c := by
  induction ids with
  | nil => exact ⟨[], rfl, rfl, by simp⟩
  | cons m ms ih =>
      obtain ⟨c, hc⟩ := Option.isSome_iff_exists.1 (hids m List.mem_cons_self)
      obtain ⟨cs, hcs, hmap, hfound⟩ := ih fun n hn => hids n (List.mem_cons_of_mem m hn)
      have hid : c.id = m := he.ids m c hc
      have hcoverage : e.coverage m = .ok c := coverage_eq_ok_iff.2 hc
      refine ⟨c :: cs, ?_, ?_, List.forall_mem_cons.2 ⟨?_, hfound⟩⟩
      · rw [coveragesOf, hcoverage, ok_bind, hcs, ok_bind]
        rfl
      · rw [List.map_cons, hid, hmap]
      · rw [hid, hcoverage]

/-- A series of a whole edition has the listed members, which are coverages of the edition. -/
theorem IsWhole.seriesNamed_eq_ok (he : e.IsWhole) (hids : e.series.get? id = some ids) :
    ∃ s, e.seriesNamed id = .ok s ∧ s.id = id ∧ s.memberIds = ids ∧
      ∀ c ∈ s.members, e.coverage c.id = .ok c := by
  obtain ⟨cs, hcs, hmap, hfound⟩ := he.coveragesOf_eq_ok (he.members id ids hids)
  refine ⟨⟨id, cs⟩, ?_, rfl, hmap, hfound⟩
  rw [seriesNamed, hids]
  dsimp only
  rw [hcs]
  rfl

end LookUps

end Edition

end CoverageAccess
