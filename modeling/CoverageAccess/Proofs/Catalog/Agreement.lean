import CoverageAccess.Proofs.Catalog.Remote
import CoverageAccess.Proofs.Catalog.Versions
import CoverageAccess.Proofs.Dataset.Storage
/-!
# What a catalog says of one coverage

A catalog is asked for the description of a coverage and for the address of its dataset, one after the
other and with other questions in between. The two answers agree for the catalogs of every kind
(`answers_agree`): a described coverage has the identifier that was asked for, and its dataset is
located exactly at the address that it is described with. A fixed catalog files coverages under their
own identifiers, an edition is whole, and a remote catalog describes a coverage for the address of its
route.
-/

namespace CoverageAccess

namespace Catalog

open Files

/-- The fixed catalog with more coverages, one after the other. -/
def Fixed.addAll (f : Fixed) (cs : List Coverage) : Fixed :=
  cs.foldl Fixed.add f

/-- A catalog as it is made while its file stays the same, with the services that it is made of. -/
inductive Made (file : State) : List Service → Catalog → Prop
  | fixed (added : List Coverage) : Made file [] (.fixed (Fixed.builtIn.addAll added))
  | listed {path : String} {l : Listed} (h : Listed.load path file = .ok l) : Made file [] (.listed l)
  | remote {services : List Service} {cache : Cache} {r : Remote}
      (h : Remote.make services cache = .ok r) : Made file services (.remote r)

/-- The catalog after some questions, each with the source of metadata as it is at the time. -/
def afterAll (file : State) (c : Catalog) (asked : List (Metadata.Source × Question)) : Catalog :=
  asked.foldl (fun c a => (c.ask ⟨file, a.1⟩ a.2).2) c

/-- What the answers of a catalog about one coverage have in common. -/
structure Agrees (file : State) (services : List Service) (c : Catalog) (id : String) : Prop where
  /-- A coverage is described under its own identifier. -/
  described : ∀ source d, (c.coverage ⟨file, source⟩ id).1 = .ok d → d.id = id
  /-- A described coverage is located where its description says, whatever is asked in between. -/
  located : ∀ source d, (c.coverage ⟨file, source⟩ id).1 = .ok d →
    ∀ asked source' u, ((c.afterAll file asked).datasetUrl ⟨file, source'⟩ id).1 = .ok u ↔
      d.datasetUrl = some u
  /-- What a remote catalog describes is what the service of its route derives. -/
  derived : ∀ r, c = .remote r → ∀ source d, (r.coverage source id).1 = .ok d ↔
    ∃ route, r.routes.resolve id = .ok route ∧ ∃ s ∈ services, s.stem = route.stem ∧
      ∃ root, (r.cache.get source id route.url).1 = .ok root ∧ s.derive root id route.url = .ok d
  /-- No route is without a service. -/
  known : ∀ source stem, (c.coverage ⟨file, source⟩ id).1 ≠ .error (Remote.unknownStem stem)

namespace Fixed

variable {f : Fixed} {cs : List Coverage} {id u : String}

/-- A fixed catalog describes coverages like an edition without series. -/
def edition (f : Fixed) : Edition := ⟨f.coverages, ∅⟩

theorem datasetUrl_eq_ok_iff :
    f.datasetUrl id = .ok u ↔ ∃ c, f.coverage id = .ok c ∧ c.datasetUrl = some u :=
  Edition.bind_datasetUrl_eq_ok_iff

theorem isWhole_of_ids (h : ∀ id c, f.coverages.get? id = some c → c.id = id) :
    f.edition.IsWhole where
  ids := h
  members id ids hids := by
    rw [edition, Table.get?_empty] at hids
    cases hids

/-- A coverage is added under its own identifier. -/
theorem isWhole_add (h : f.edition.IsWhole) (c : Coverage) : (f.add c).edition.IsWhole := by
  refine isWhole_of_ids fun id d hd => ?_
  rw [add, Table.get?_insert] at hd
  split at hd
  next hid =>
    cases hd
    exact hid.symm
  next => exact h.ids id d hd

theorem isWhole_addAll (h : f.edition.IsWhole) : (f.addAll cs).edition.IsWhole := by
  induction cs generalizing f with
  | nil => exact h
  | cons c cs ih => exact ih (isWhole_add h c)

theorem isWhole_builtIn : builtIn.edition.IsWhole := by
  have hempty : (Fixed.edition ⟨∅⟩).IsWhole := by
    refine isWhole_of_ids fun id c hc => ?_
    rw [Table.get?_empty] at hc
    cases hc
  rw [builtIn]
  exact isWhole_add (isWhole_add hempty _) _

end Fixed

namespace Remote

variable {services : List Service} {cache : Cache} {r : Remote} {source : Metadata.Source}
  {id u : String} {d : Coverage}

/-- A described coverage has the identifier that it was asked for, and the address of its route. -/
theorem id_of_coverage_eq_ok (h : make services cache = .ok r)
    (hd : (r.coverage source id).1 = .ok d) :
    d.id = id ∧ (r.datasetUrl id = .ok u ↔ d.datasetUrl = some u) := by
  obtain ⟨route, hroute, s, -, -, root, -, hderive⟩ := (coverage_eq_ok_iff h).1 hd
  obtain ⟨hid, hurl⟩ := Service.id_of_derive_eq_ok hderive
  refine ⟨hid, ?_⟩
  rw [datasetUrl, hroute, ok_bind, hurl, Option.some.injEq]
  exact pure_eq_ok_iff

/-- A look-up leaves the services of the catalog as they are. -/
theorem services_coverage (source : Metadata.Source) (r : Remote) (id : String) :
    (r.coverage source id).2.services = r.services := by
  rw [coverage]
  split <;> rfl

end Remote

section Questions

variable {file : State} {services : List Service} {c : Catalog} {id u : String}
  {source : Metadata.Source} {d : Coverage}

/-- A catalog that has been asked is still one that can be made. -/
theorem Made.ask (hc : Made file services c) (source : Metadata.Source) (q : Question) :
    Made file services (c.ask ⟨file, source⟩ q).2 := by
  cases hc with
  | fixed added => cases q <;> exact .fixed added
  | listed h =>
      rw [ask_listed, Listed.refresh_eq_self h]
      exact .listed h
  | @remote _ _ r h =>
      cases q with
      | coverage id =>
          have hkept : Remote.make services (r.coverage source id).2.cache =
              .ok (r.coverage source id).2 := by
            rw [Remote.make_eq_ok_iff, Remote.services_coverage]
            exact ⟨(Remote.make_eq_ok_iff.1 h).1, rfl⟩
          exact .remote hkept
      | dataset id => exact .remote h
      | series id => exact .remote h

theorem Made.afterAll (hc : Made file services c) (asked : List (Metadata.Source × Question)) :
    Made file services (c.afterAll file asked) := by
  induction asked generalizing c with
  | nil => exact hc
  | cons a asked ih => exact ih (hc.ask a.1 a.2)

/-- Addresses do not depend on the source of metadata. -/
theorem datasetUrl_source (c : Catalog) (source source' : Metadata.Source) (id : String) :
    (c.datasetUrl ⟨file, source⟩ id).1 = (c.datasetUrl ⟨file, source'⟩ id).1 := by
  cases c <;> rfl

/-- A question changes no address. -/
theorem Made.datasetUrl_ask (hc : Made file services c) (source source' : Metadata.Source)
    (q : Question) (id : String) :
    ((c.ask ⟨file, source⟩ q).2.datasetUrl ⟨file, source'⟩ id).1 =
      (c.datasetUrl ⟨file, source'⟩ id).1 := by
  cases hc with
  | fixed added => cases q <;> rfl
  | listed h =>
      rw [ask_listed, Listed.refresh_eq_self h]
  | @remote _ _ r h =>
      cases q with
      | coverage coverageId =>
          change (r.coverage source coverageId).2.datasetUrl id = r.datasetUrl id
          rw [Remote.datasetUrl, Remote.routes, Remote.services_coverage]
          rfl
      | dataset => rfl
      | series => rfl

theorem Made.datasetUrl_afterAll (hc : Made file services c)
    (asked : List (Metadata.Source × Question)) (source : Metadata.Source) (id : String) :
    ((c.afterAll file asked).datasetUrl ⟨file, source⟩ id).1 =
      (c.datasetUrl ⟨file, source⟩ id).1 := by
  induction asked generalizing c with
  | nil => rfl
  | cons a asked ih => exact (ih (hc.ask a.1 a.2)).trans (hc.datasetUrl_ask a.1 source a.2 id)

/-- The two answers of a catalog about one coverage. -/
theorem Made.coverage_eq_ok (hc : Made file services c)
    (hd : (c.coverage ⟨file, source⟩ id).1 = .ok d) :
    d.id = id ∧ ((c.datasetUrl ⟨file, source⟩ id).1 = .ok u ↔ d.datasetUrl = some u) := by
  cases hc with
  | fixed added =>
      have hwhole : (Fixed.builtIn.addAll added).edition.IsWhole :=
        Fixed.isWhole_addAll Fixed.isWhole_builtIn
      refine ⟨hwhole.id_of_coverage_eq_ok hd, ?_⟩
      exact Fixed.datasetUrl_eq_ok_iff.trans (exists_eq_ok_and_iff hd)
  | @listed _ l h =>
      have hwhole : (l.refresh file).edition.IsWhole := by
        obtain ⟨f, e, -, he, hl⟩ := Listed.load_eq_ok_iff.1 h
        rw [Listed.refresh_eq_self h, hl]
        exact Listed.isWhole_of_editionOf he
      refine ⟨hwhole.id_of_coverage_eq_ok hd, ?_⟩
      exact Edition.datasetUrl_eq_ok_iff.trans (exists_eq_ok_and_iff hd)
  | remote h => exact Remote.id_of_coverage_eq_ok h hd

/-- No catalog answers that a route has no service. -/
theorem Made.coverage_ne_unknownStem (hc : Made file services c) (source : Metadata.Source)
    (id stem : String) : (c.coverage ⟨file, source⟩ id).1 ≠ .error (Remote.unknownStem stem) := by
  cases hc with
  | fixed added =>
      intro hf
      have hfault := Edition.coverage_eq_error (e := (Fixed.builtIn.addAll added).edition) hf
      exact Fault.noConfusion hfault
  | @listed _ l h =>
      intro hf
      have hfault := Edition.coverage_eq_error (e := (l.refresh file).edition) hf
      exact Fault.noConfusion hfault
  | remote h => exact Remote.coverage_ne_unknownStem h

/-- What a catalog says of a coverage agrees, for every kind of catalog and after any questions. -/
theorem answers_agree (hc : Made file services c) (asked : List (Metadata.Source × Question))
    (id : String) : Agrees file services (c.afterAll file asked) id where
  described source d hd := ((hc.afterAll asked).coverage_eq_ok hd (u := "")).1
  located source d hd later source' u := by
    have hmade := hc.afterAll asked
    rw [hmade.datasetUrl_afterAll, datasetUrl_source _ source' source]
    exact (hmade.coverage_eq_ok hd).2
  derived r hr source d := by
    have hmade := hc.afterAll asked
    rw [hr] at hmade
    cases hmade with
    | remote h => exact Remote.coverage_eq_ok_iff h
  known source stem := (hc.afterAll asked).coverage_ne_unknownStem source id stem

/-- Every dataset has one field over the latitude. -/
def gridSource : Metadata.Source := fun _ =>
  .ok "<Dataset><Float32 name=\"sst\"><Dim name=\"lat\"/></Float32></Dataset>".toUTF8.toList

theorem answers_agree_latitudes :
    ∃ r d, Remote.make [Dataset.latitudes] (Cache.empty "cache") = .ok r ∧
      (r.coverage gridSource "grids/sst").1 = .ok d ∧ d.id = "grids/sst" ∧
      r.datasetUrl "grids/sst" = .ok "http://localhost/sst" ∧
      Agrees (.error .absent) [Dataset.latitudes]
        ((remote r).afterAll (.error .absent) [(gridSource, .coverage "grids/sst")]) "grids/sst" := by
  have hdescribed : (Remote.make [Dataset.latitudes] (Cache.empty "cache")).toOption.bind (fun r =>
      (r.coverage gridSource "grids/sst").1.toOption.bind fun d => d.datasetUrl) =
        some "http://localhost/sst" := by
    decide +kernel
  obtain ⟨r, hr, hd⟩ := Option.bind_eq_some_iff.1 hdescribed
  obtain ⟨d, hd, hurl⟩ := Option.bind_eq_some_iff.1 hd
  rw [toOption_eq_some_iff] at hr hd
  have hmade : Made (.error .absent) [Dataset.latitudes] (remote r) := .remote hr
  have hagrees := answers_agree hmade [] "grids/sst"
  refine ⟨r, d, hr, hd, hagrees.described gridSource d hd, ?_, answers_agree hmade _ _⟩
  exact (hagrees.located gridSource d hd [] gridSource _).2 hurl

end Questions

end Catalog

end CoverageAccess
