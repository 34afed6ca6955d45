import CoverageAccess.Catalog.Remote
import CoverageAccess.Proofs.Cache.Visits
import CoverageAccess.Proofs.Dataset.Declared
import CoverageAccess.Proofs.Dataset.Derived
import CoverageAccess.Proofs.Routes
/-!
# Services of remote catalogs

The routes of a remote catalog are made from the table of its services, so every route that is found
belongs to one of the services that the catalog was made of, and the coverage is derived with that
service (`coverage_eq_ok_iff`). The fault of a route without a service is never answered
(`coverage_ne_unknownStem`).
-/

namespace CoverageAccess

/-- A derived coverage has the identifier and the address that it was derived for. -/
theorem Service.id_of_derive_eq_ok {s : Service} {root : Markup.Element} {id url : String}
    {c : Coverage} (h : s.derive root id url = .ok c) : c.id = id ∧ c.datasetUrl = some url := by
  obtain ⟨d, -, h⟩ := derive_eq_ok_iff.1 h
  obtain ⟨-, -, -, rfl⟩ := describe_eq_ok_iff.1 h
  exact ⟨rfl, rfl⟩

namespace Catalog

namespace Remote

open Metadata

variable {services : List Service} {cache : Cache} {r : Remote} {source : Source}
  {id stem : String} {s : Service} {route : Route} {d : Coverage}

/-- The services are those that were there and those of the list, under their stems. -/
theorem get?_of_enterServices {t u : Table Service} (h : enterServices t services = .ok u) :
    u.get? stem = some s ↔ t.get? stem = some s ∨ s ∈ services ∧ s.stem = stem := by
  induction services generalizing t with
  | nil =>
      cases h
      simp
  | cons a services ih =>
      rw [enterServices] at h
      split at h
      next => cases h
      next =>
        split at h
        next => cases h
        next hnew =>
          have hfree : t.get? a.stem = none := by simpa [Table.contains] using hnew
          rw [ih h, Table.get?_insert, List.mem_cons, or_and_right, ← or_assoc]
          refine or_congr_left ?_
          split
          next hstem =>
            subst hstem
            rw [hfree, Option.some.injEq]
            refine ⟨fun hs => .inr ⟨hs.symm, hs ▸ rfl⟩, fun hs => ?_⟩
            exact (hs.resolve_left nofun).1.symm
          next hstem =>
            refine ⟨.inl, fun hs => hs.resolve_right ?_⟩
            rintro ⟨rfl, rfl⟩
            exact hstem rfl

theorem make_eq_ok_iff : make services cache = .ok r ↔
    enterServices ∅ services = .ok r.services ∧ r.cache = cache := by
  obtain ⟨table, kept⟩ := r
  constructor
  · intro h
    obtain ⟨t, ht, h⟩ := bind_eq_ok_iff.1 h
    cases pure_eq_ok_iff.1 h
    exact ⟨ht, rfl⟩
  · rintro ⟨ht, rfl⟩
    exact bind_eq_ok_iff.2 ⟨table, ht, rfl⟩

/-- The table holds the services that the catalog was made of. -/
theorem get?_services (h : make services cache = .ok r) :
    r.services.get? stem = some s ↔ s ∈ services ∧ s.stem = stem := by
  rw [get?_of_enterServices (make_eq_ok_iff.1 h).1, Table.get?_empty]
  simp

/-- A route that is found is that of a service. -/
theorem exists_service_of_resolve (h : make services cache = .ok r)
    (hroute : r.routes.resolve id = .ok route) : ∃ s ∈ services, s.stem = route.stem := by
  obtain ⟨base, -, hbase, -, -⟩ := Routes.mem_matching_iff.1 (Routes.mem_matching_of_resolve hroute)
  obtain ⟨⟨stem, s⟩, he, heq⟩ := List.mem_map.1 (Table.mem_of_get?_ofList hbase)
  obtain ⟨rfl, -⟩ := Prod.mk.inj heq
  exact ⟨s, (get?_services h).1 (Table.get?_eq_some_iff.2 he)⟩

/-- A coverage is located by the route that is found for it, and by the service of that route. -/
theorem locate_eq_ok (h : make services cache = .ok r) (hroute : r.routes.resolve id = .ok route)
    (hs : s ∈ services) (hstem : s.stem = route.stem) : r.locate id = .ok (s, route.url) := by
  rw [locate, hroute, ok_bind, (get?_services h).2 ⟨hs, hstem⟩]
  rfl

/-- A coverage is described with the service of its route, from the metadata that the cache answers.
-/
theorem coverage_eq_derive (source : Source) (h : make services cache = .ok r)
    (hroute : r.routes.resolve id = .ok route) (hs : s ∈ services) (hstem : s.stem = route.stem) :
    (r.coverage source id).1 =
      (r.cache.get source id route.url).1.bind fun root => s.derive root id route.url := by
  rw [coverage, locate_eq_ok h hroute hs hstem]

/-- A coverage without a route is not described. -/
theorem coverage_of_no_route {f : Fault} (hroute : r.routes.resolve id = .error f) :
    (r.coverage source id).1 = .error f := by
  have hlocate : r.locate id = .error f := by
    rw [locate, hroute, error_bind]
  rw [coverage, hlocate]

/-- The described coverages are those that the services of their routes derive. -/
theorem coverage_eq_ok_iff (h : make services cache = .ok r) : (r.coverage source id).1 = .ok d ↔
    ∃ route, r.routes.resolve id = .ok route ∧ ∃ s ∈ services, s.stem = route.stem ∧
      ∃ root, (r.cache.get source id route.url).1 = .ok root ∧
        s.derive root id route.url = .ok d := by
  constructor
  · intro hd
    cases hroute : r.routes.resolve id with
    | error f =>
        rw [coverage_of_no_route hroute] at hd
        cases hd
    | ok route =>
        obtain ⟨s, hs, hstem⟩ := exists_service_of_resolve h hroute
        rw [coverage_eq_derive source h hroute hs hstem] at hd
        obtain ⟨root, hroot, hderive⟩ := bind_eq_ok_iff.1 hd
        exact ⟨route, rfl, s, hs, hstem, root, hroot, hderive⟩
  · rintro ⟨route, hroute, s, hs, hstem, root, hroot, hderive⟩
    rw [coverage_eq_derive source h hroute hs hstem]
    exact bind_eq_ok_iff.2 ⟨root, hroot, hderive⟩

section Faults

variable {f : Fault}

/-- The text of an internal fault tells it from that of a route without a service. -/
theorem internal_ne_unknownStem {text : String} (h : text.toList.head? ≠ some 'R') :
    Fault.internal text ≠ unknownStem stem := by
  intro heq
  rw [unknownStem, Fault.internal.injEq] at heq
  rw [heq] at h
  exact h (by simp [toString])

theorem cache_get_ne_unknownStem {c : Cache} {url : String}
    (hf : (c.get source id url).1 = .error f) : f ≠ unknownStem stem := by
  have hgot := c.got source id url
  rw [hf] at hgot
  generalize (c.get source id url).2 = c' at hgot
  cases hgot with
  | evicted => exact Fault.noConfusion
  | failed _ hfailed =>
      rcases Metadata.obtain_eq_error_iff.1 hfailed with ⟨_, _, rfl⟩ | ⟨_, _, _, _, rfl⟩
      · exact Fault.noConfusion
      · exact Fault.noConfusion
  | blocked => exact internal_ne_unknownStem (by simp [toString])

theorem derive_ne_unknownStem {root : Markup.Element} {url : String}
    (hf : s.derive root id url = .error f) : f ≠ unknownStem stem := by
  rcases bind_eq_error_iff.1 hf with hroot | ⟨d, -, hf⟩
  · rw [Dataset.ofElement_eq_error hroot]
    exact internal_ne_unknownStem (by simp [toString])
  · rcases Service.describe_eq_error hf with ⟨-, rfl⟩ | ⟨-, ⟨cause, rfl⟩ | ⟨cause, rfl⟩⟩
    · exact Fault.noConfusion
    · exact Fault.noConfusion
    · cases cause with
      | repeatedCoordinate => exact internal_ne_unknownStem (by simp [toString])
      | repeatedField => exact internal_ne_unknownStem (by simp [toString])

/-- Every route has its service, whatever is asked for. -/
theorem coverage_ne_unknownStem (h : make services cache = .ok r) :
    (r.coverage source id).1 ≠ .error (unknownStem stem) := by
  intro hf
  cases hroute : r.routes.resolve id with
  | error f =>
      rw [coverage_of_no_route hroute, Routes.resolve_eq_error hroute] at hf
      exact Fault.noConfusion (Except.error.inj hf)
  | ok route =>
      obtain ⟨s, hs, hstem⟩ := exists_service_of_resolve h hroute
      rw [coverage_eq_derive source h hroute hs hstem] at hf
      rcases bind_eq_error_iff.1 hf with hget | ⟨root, -, hderive⟩
      · exact cache_get_ne_unknownStem hget rfl
      · exact derive_ne_unknownStem hderive rfl

end Faults

end Remote

end Catalog

end CoverageAccess
