import CoverageAccess.Proofs.Text.Utf8
import CoverageAccess.Routes
/-!
# Routes that are found

A route that is found for an identifier is one of the filed ones: the identifier is its stem and some
rest, and its address is the base that is filed under the stem, followed by that rest. No other filed
stem that the identifier begins with is longer, and that determines the route
(`resolve_ofList_eq_ok_iff`). So it does not matter in which order different stems are listed, and one
more stem matters only to the identifiers that it takes over from shorter ones (`resolve_longest`).
-/

namespace CoverageAccess

theorem Route.length_le_longer (a b : Route) :
    a.stem.length ≤ (a.longer b).stem.length ∧ b.stem.length ≤ (a.longer b).stem.length := by
  unfold Route.longer
  split
  next h => exact ⟨Nat.le_of_lt h, Nat.le_refl _⟩
  next h => exact ⟨Nat.le_refl _, Nat.le_of_not_lt h⟩

namespace Routes

variable {r r' : Routes} {id : String} {route : Route}

theorem mem_of_longest {l : List Route} (h : longest l = some route) : route ∈ l := by
  cases l with
  | nil => cases h
  | cons a as =>
      cases h
      induction as generalizing a with
      | nil => exact List.mem_cons_self
      | cons b as ih =>
          rw [List.foldl_cons]
          rcases List.mem_cons.1 (ih (a.longer b)) with heq | hmem
          · rw [heq, Route.longer]
            split
            · exact List.mem_cons_of_mem _ List.mem_cons_self
            · exact List.mem_cons_self
          · exact List.mem_cons_of_mem _ (List.mem_cons_of_mem _ hmem)

theorem length_le_of_longest {l : List Route} (h : longest l = some route) :
    ∀ other ∈ l, other.stem.length ≤ route.stem.length := by
  cases l with
  | nil => cases h
  | cons a as =>
      cases h
      induction as generalizing a with
      | nil =>
          intro other hother
          rw [List.mem_singleton.1 hother]
          exact Nat.le_refl _
      | cons b as ih =>
          rw [List.foldl_cons]
          obtain ⟨ha, hb⟩ := a.length_le_longer b
          obtain ⟨hlonger, hrest⟩ := List.forall_mem_cons.1 (ih (a.longer b))
          exact List.forall_mem_cons.2 ⟨Nat.le_trans ha hlonger,
            List.forall_mem_cons.2 ⟨Nat.le_trans hb hlonger, hrest⟩⟩

theorem mem_matching_iff : route ∈ r.matching id ↔ ∃ base rest,
    r.bases.get? route.stem = some base ∧ id.toList = route.stem.toList ++ rest ∧
      route.url = base ++ String.ofList rest := by
  obtain ⟨stem, url⟩ := route
  simp only [matching, route?, List.mem_filterMap, Option.map_eq_some_iff, Route.mk.injEq,
    Text.dropStart?_eq_some_iff, Table.get?_eq_some_iff]
  constructor
  · rintro ⟨⟨k, base⟩, he, rest, hrest, rfl, rfl⟩
    exact ⟨base, rest, he, hrest, rfl⟩
  · rintro ⟨base, rest, he, hrest, rfl⟩
    exact ⟨(stem, base), he, rest, hrest, rfl, rfl⟩

theorem mem_matching_of_resolve (h : r.resolve id = .ok route) : route ∈ r.matching id := by
  unfold resolve at h
  split at h
  next found hfound =>
    cases h
    exact mem_of_longest hfound
  next => cases h

theorem resolve_eq_error {f : Fault} (h : r.resolve id = .error f) : f = noRoute id := by
  unfold resolve at h
  split at h
  next => cases h
  next =>
    cases h
    rfl

theorem length_le_of_resolve (h : r.resolve id = .ok route) :
    ∀ other ∈ r.matching id, other.stem.length ≤ route.stem.length := by
  unfold resolve at h
  split at h
  next found hfound =>
    cases h
    exact length_le_of_longest hfound
  next => cases h

theorem exists_resolve_of_mem (h : route ∈ r.matching id) : ∃ found, r.resolve id = .ok found := by
  unfold resolve
  split
  next found _ => exact ⟨found, rfl⟩
  next hnone =>
    rw [longest_eq_none_iff.1 hnone] at h
    cases h

/-- Of the routes of one identifier no two have stems of one length. -/
theorem eq_of_mem_matching {other : Route} (h : route ∈ r.matching id)
    (h' : other ∈ r.matching id) (hlength : route.stem.length = other.stem.length) :
    route = other := by
  obtain ⟨base, rest, hbase, hid, hurl⟩ := mem_matching_iff.1 h
  obtain ⟨base', rest', hbase', hid', hurl'⟩ := mem_matching_iff.1 h'
  obtain ⟨hstem, rfl⟩ := List.append_inj (hid.symm.trans hid') hlength
  rw [String.toList_inj] at hstem
  rw [hstem, hbase', Option.some_inj] at hbase
  rw [← hbase] at hurl
  cases route
  cases other
  exact (Route.mk.injEq ..).symm ▸ ⟨hstem, hurl.trans hurl'.symm⟩

theorem resolve_eq_ok_iff : r.resolve id = .ok route ↔
    route ∈ r.matching id ∧ ∀ other ∈ r.matching id, other.stem.length ≤ route.stem.length := by
  constructor
  · intro h
    exact ⟨mem_matching_of_resolve h, length_le_of_resolve h⟩
  · rintro ⟨hmem, hlongest⟩
    obtain ⟨found, hfound⟩ := exists_resolve_of_mem hmem
    have hfoundMem := mem_matching_of_resolve hfound
    have hlength := Nat.le_antisymm (length_le_of_resolve hfound route hmem)
      (hlongest found hfoundMem)
    rw [hfound, eq_of_mem_matching hmem hfoundMem hlength]

/-- Two tables of routes agree on an identifier if they find the same routes for it. -/
theorem resolve_congr (h : ∀ route, r.resolve id = .ok route ↔ r'.resolve id = .ok route) :
    r.resolve id = r'.resolve id := by
  cases hr : r.resolve id with
  | ok route => exact ((h route).1 hr).symm
  | error f =>
      cases hr' : r'.resolve id with
      | ok route => exact hr.symm.trans ((h route).2 hr')
      | error f' => rw [resolve_eq_error hr, resolve_eq_error hr']

section Listed

variable {services before after : List (String × String)} {stem base : String}

/-- The base counts for the stem: no later pair of the list has that stem. -/
def IsLastFor (services : List (String × String)) (stem base : String) : Prop :=
  ∃ before after, services = before ++ (stem, base) :: after ∧ ∀ e ∈ after, e.1 ≠ stem

/-- The route leads from the longest listed stem with which the identifier begins to the base of that
stem, followed by the rest of the identifier. -/
structure IsLongest (services : List (String × String)) (id : String) (route : Route) : Prop where
  leads : ∃ base rest, IsLastFor services route.stem base ∧ id = route.stem ++ rest ∧
    route.url = base ++ rest
  longest : ∀ e ∈ services, e.1.toList <+: id.toList → e.1.length ≤ route.stem.length

theorem get?_ofList_eq_some_iff :
    (Table.ofList services).get? stem = some base ↔ IsLastFor services stem base := by
  rw [Table.get?_ofList, Option.map_eq_some_iff]
  constructor
  · rintro ⟨e, he, rfl⟩
    obtain ⟨hkey, before, after, hsplit, hbefore⟩ := List.find?_eq_some_iff_append.1 he
    rw [beq_iff_eq] at hkey
    refine ⟨after.reverse, before.reverse, ?_, fun e' he' => ?_⟩
    · rw [← hkey, ← List.reverse_reverse services, hsplit]
      simp
    · simpa using hbefore e' (List.mem_reverse.1 he')
  · rintro ⟨before, after, rfl, hafter⟩
    refine ⟨(stem, base), List.find?_eq_some_iff_append.2 ⟨beq_self_eq_true stem, after.reverse,
      before.reverse, by simp, fun e he => ?_⟩, rfl⟩
    simpa using hafter e (List.mem_reverse.1 he)

theorem IsLastFor.mem (h : IsLastFor services stem base) : (stem, base) ∈ services := by
  obtain ⟨before, after, rfl, -⟩ := h
  exact List.mem_append_right _ List.mem_cons_self

/-- Every listed stem has a base. -/
theorem exists_isLastFor {e : String × String} (he : e ∈ services) :
    ∃ base, IsLastFor services e.1 base := by
  have hsome : (services.reverse.find? fun d => d.1 == e.1).isSome = true :=
    List.find?_isSome.2 ⟨e, List.mem_reverse.2 he, beq_self_eq_true e.1⟩
  obtain ⟨found, hfound⟩ := Option.isSome_iff_exists.1 hsome
  refine ⟨found.2, get?_ofList_eq_some_iff.1 ?_⟩
  rw [Table.get?_ofList, hfound, Option.map_some]

/-- Where no stem is listed twice, every pair counts. -/
theorem isLastFor_iff_mem (hdistinct : (services.map Prod.fst).Nodup) :
    IsLastFor services stem base ↔ (stem, base) ∈ services := by
  refine ⟨IsLastFor.mem, fun h => ?_⟩
  obtain ⟨before, after, rfl⟩ := List.append_of_mem h
  rw [List.map_append, List.nodup_append, List.map_cons, List.nodup_cons] at hdistinct
  obtain ⟨-, ⟨hstem, -⟩, -⟩ := hdistinct
  exact ⟨before, after, rfl, fun e he heq => hstem (List.mem_map.2 ⟨e, he, heq⟩)⟩

/-- One more pair changes nothing for the other stems. -/
theorem isLastFor_append_cons_iff {key : String} {found : String} (hkey : key ≠ stem) :
    IsLastFor (before ++ (stem, base) :: after) key found ↔
      IsLastFor (before ++ after) key found := by
  rw [← get?_ofList_eq_some_iff, ← get?_ofList_eq_some_iff, Table.get?_ofList, Table.get?_ofList]
  simp [List.find?_append, Ne.symm hkey]

theorem mem_matching_ofList_iff : route ∈ (ofList services).matching id ↔ ∃ base rest,
    IsLastFor services route.stem base ∧ id = route.stem ++ rest ∧ route.url = base ++ rest := by
  rw [mem_matching_iff]
  constructor
  · rintro ⟨base, rest, hbase, hid, hurl⟩
    refine ⟨base, String.ofList rest, get?_ofList_eq_some_iff.1 hbase, ?_, hurl⟩
    rw [← String.toList_inj, hid, String.toList_append, String.toList_ofList]
  · rintro ⟨base, rest, hbase, hid, hurl⟩
    refine ⟨base, rest.toList, get?_ofList_eq_some_iff.2 hbase, ?_, ?_⟩
    · rw [hid, String.toList_append]
    · rw [hurl, String.ofList_toList]

/-- Every listed stem with which the identifier begins makes a route. -/
theorem exists_mem_matching {e : String × String} (he : e ∈ services)
    (hbegins : e.1.toList <+: id.toList) :
    ∃ other ∈ (ofList services).matching id, other.stem = e.1 := by
  obtain ⟨base, hbase⟩ := exists_isLastFor he
  obtain ⟨rest, hrest⟩ := hbegins
  refine ⟨⟨e.1, base ++ String.ofList rest⟩, mem_matching_ofList_iff.2
    ⟨base, String.ofList rest, hbase, ?_, rfl⟩, rfl⟩
  rw [← String.toList_inj, String.toList_append, String.toList_ofList, hrest]

theorem IsLongest.begins (h : IsLongest services id route) : route.stem.toList <+: id.toList := by
  obtain ⟨base, rest, -, hid, -⟩ := h.leads
  rw [hid, String.toList_append]
  exact List.prefix_append _ _

theorem resolve_ofList_eq_ok_iff :
    (ofList services).resolve id = .ok route ↔ IsLongest services id route := by
  rw [resolve_eq_ok_iff, mem_matching_ofList_iff]
  constructor
  · rintro ⟨hleads, hlongest⟩
    refine ⟨hleads, fun e he hbegins => ?_⟩
    obtain ⟨other, hother, hstem⟩ := exists_mem_matching he hbegins
    rw [← hstem]
    exact hlongest other hother
  · rintro ⟨hleads, hlongest⟩
    refine ⟨hleads, fun other hother => ?_⟩
    obtain ⟨base, rest, hbase, hid, -⟩ := mem_matching_ofList_iff.1 hother
    refine hlongest (other.stem, base) hbase.mem ?_
    rw [hid, String.toList_append]
    exact List.prefix_append _ _

/-- There is no route exactly if the identifier begins with no listed stem. -/
theorem resolve_ofList_eq_error_iff {f : Fault} : (ofList services).resolve id = .error f ↔
    f = noRoute id ∧ ∀ e ∈ services, ¬e.1.toList <+: id.toList := by
  constructor
  · intro h
    refine ⟨resolve_eq_error h, fun e he hbegins => ?_⟩
    obtain ⟨other, hother, -⟩ := exists_mem_matching he hbegins
    obtain ⟨found, hfound⟩ := exists_resolve_of_mem hother
    rw [h] at hfound
    cases hfound
  · rintro ⟨rfl, hnone⟩
    cases h : (ofList services).resolve id with
    | error f => rw [resolve_eq_error h]
    | ok route =>
        have hroute := resolve_ofList_eq_ok_iff.1 h
        obtain ⟨base, rest, hbase, -, -⟩ := hroute.leads
        exact absurd hroute.begins (hnone _ hbase.mem)

theorem IsLongest.perm {services' : List (String × String)} (h : IsLongest services id route)
    (hperm : services.Perm services') (hdistinct : (services.map Prod.fst).Nodup) :
    IsLongest services' id route := by
  have hdistinct' := (hperm.map Prod.fst).nodup_iff.1 hdistinct
  obtain ⟨⟨base, rest, hbase, hroute⟩, hlongest⟩ := h
  rw [isLastFor_iff_mem hdistinct, hperm.mem_iff, ← isLastFor_iff_mem hdistinct'] at hbase
  exact ⟨⟨base, rest, hbase, hroute⟩, fun e he => hlongest e (hperm.mem_iff.2 he)⟩

/-- Different stems may be listed in any order. -/
theorem resolve_ofList_perm {services' : List (String × String)} (hperm : services.Perm services')
    (hdistinct : (services.map Prod.fst).Nodup) :
    (ofList services').resolve id = (ofList services).resolve id := by
  have hdistinct' := (hperm.map Prod.fst).nodup_iff.1 hdistinct
  refine resolve_congr fun route => ?_
  rw [resolve_ofList_eq_ok_iff, resolve_ofList_eq_ok_iff]
  exact ⟨fun h => h.perm hperm.symm hdistinct', fun h => h.perm hperm hdistinct⟩

/-- A further stem is not the longest one if the identifier does not begin with it, or if it is
shorter than the longest one. -/
theorem isLongest_append_cons_iff
    (hshort : stem.toList <+: id.toList → stem.length < route.stem.length) :
    IsLongest (before ++ (stem, base) :: after) id route ↔
      IsLongest (before ++ after) id route := by
  have hmem (e : String × String) :
      e ∈ before ++ (stem, base) :: after ↔ e = (stem, base) ∨ e ∈ before ++ after :=
    List.perm_middle.mem_iff.trans List.mem_cons
  have hother (h : route.stem.toList <+: id.toList) : route.stem ≠ stem := by
    rintro rfl
    exact absurd (hshort h) (Nat.lt_irrefl _)
  constructor
  · intro h
    obtain ⟨found, rest, hbase, hroute⟩ := h.leads
    rw [isLastFor_append_cons_iff (hother h.begins)] at hbase
    exact ⟨⟨found, rest, hbase, hroute⟩, fun e he => h.longest e ((hmem e).2 (.inr he))⟩
  · intro h
    obtain ⟨found, rest, hbase, hroute⟩ := h.leads
    rw [← isLastFor_append_cons_iff (hother h.begins)] at hbase
    refine ⟨⟨found, rest, hbase, hroute⟩, fun e he hbegins => ?_⟩
    rcases (hmem e).1 he with rfl | he
    · exact Nat.le_of_lt (hshort hbegins)
    · exact h.longest e he hbegins

/-- A further stem matters to no identifier that does not begin with it, nor to one that begins with
a longer stem of the list. -/
theorem resolve_ofList_append_cons
    (hother : ¬stem.toList <+: id.toList ∨
      ∃ e ∈ before ++ after, e.1.toList <+: id.toList ∧ stem.length < e.1.length) :
    (ofList (before ++ (stem, base) :: after)).resolve id =
      (ofList (before ++ after)).resolve id := by
  -- the longest stem is longer than the further one, with it in the list and without it
  have hshort (services : List (String × String)) (hsub : before ++ after ⊆ services)
      (route : Route) (h : IsLongest services id route) (hbegins : stem.toList <+: id.toList) :
      stem.length < route.stem.length := by
    obtain ⟨e, he, hlonger, hlength⟩ := hother.resolve_left (not_not_intro hbegins)
    exact Nat.lt_of_lt_of_le hlength (h.longest e (hsub he) hlonger)
  refine resolve_congr fun route => ?_
  rw [resolve_ofList_eq_ok_iff, resolve_ofList_eq_ok_iff]
  constructor
  · intro h
    have hsub : before ++ after ⊆ before ++ (stem, base) :: after :=
      fun e he => List.perm_middle.mem_iff.2 (List.mem_cons_of_mem _ he)
    exact (isLongest_append_cons_iff (hshort _ hsub route h)).1 h
  · intro h
    exact (isLongest_append_cons_iff (hshort _ (List.Subset.refl _) route h)).2 h

end Listed

section Bytes

/-- The bytes that follow those of the stem are the bytes of a text. -/
theorem exists_rest_of_encode {stem id : String} (h : Utf8.encode stem <+: Utf8.encode id) :
    ∃ rest, id = stem ++ rest ∧
      Utf8.decode? ((Utf8.encode id).drop (Utf8.encode stem).length) = some rest := by
  obtain ⟨rest, hrest⟩ := Utf8.encode_isPrefix_encode_iff.1 h
  have hid : id = stem ++ String.ofList rest := by
    rw [← String.toList_inj, String.toList_append, String.toList_ofList, hrest]
  refine ⟨String.ofList rest, hid, ?_⟩
  have hbytes : Utf8.encode id = Utf8.encode stem ++ Utf8.encode (String.ofList rest) := by
    rw [Utf8.encode, ← hrest, Utf8.encodeChars_append, Utf8.encode, Utf8.encode,
      String.toList_ofList]
  rw [hbytes, List.drop_left, Utf8.decode?_encode]

end Bytes

/-- An identifier is resolved by the longest listed stem with which it begins, and not at all if there
is none; the bytes after those of a stem are always a text. So the order of different stems does not
matter, and a further stem, wherever it is listed, matters neither to identifiers that do not begin
with it nor to those that begin with a longer one. -/
theorem resolve_longest (services : List (String × String)) (id : String) :
    (∀ route, (ofList services).resolve id = .ok route ↔ IsLongest services id route) ∧
      (∀ f, (ofList services).resolve id = .error f ↔
        f = noRoute id ∧ ∀ e ∈ services, ¬e.1.toList <+: id.toList) ∧
      (∀ stem, Utf8.encode stem <+: Utf8.encode id → ∃ rest, id = stem ++ rest ∧
        Utf8.decode? ((Utf8.encode id).drop (Utf8.encode stem).length) = some rest) ∧
      (∀ services', services.Perm services' → (services.map Prod.fst).Nodup →
        (ofList services').resolve id = (ofList services).resolve id) ∧
      ∀ before after stem base, services = before ++ after →
        (¬stem.toList <+: id.toList ∨
          ∃ e ∈ services, e.1.toList <+: id.toList ∧ stem.length < e.1.length) →
        (ofList (before ++ (stem, base) :: after)).resolve id = (ofList services).resolve id := by
  refine ⟨fun route => resolve_ofList_eq_ok_iff, fun f => resolve_ofList_eq_error_iff,
    fun stem h => exists_rest_of_encode h, fun services' hperm hdistinct =>
      resolve_ofList_perm hperm hdistinct, ?_⟩
  rintro before after stem base rfl hother
  exact resolve_ofList_append_cons hother

/-- A service for everything, and two for parts of it. -/
def charts : List (String × String) :=
  [("", "http://localhost/"), ("meer/eis/", "http://localhost/polar/"),
    ("北海/", "http://localhost/north/")]

theorem isLongest_charts :
    IsLongest charts "meer/eis/drift" ⟨"meer/eis/", "http://localhost/polar/drift"⟩ where
  leads := ⟨"http://localhost/polar/", "drift", ⟨[_], [_], rfl, by decide⟩, by decide, by decide⟩
  longest := by decide

/-- The longest stem wins, also over one that is listed later; a stem of several bytes for each
character is cut off whole; and neither the order of the list nor a shorter stem changes the route. -/
theorem resolve_longest_charts :
    (ofList charts).resolve "meer/eis/drift" =
        .ok ⟨"meer/eis/", "http://localhost/polar/drift"⟩ ∧
      (Utf8.encode "北海/" <+: Utf8.encode "北海/波" ∧
        ∃ rest, "北海/波" = "北海/" ++ rest ∧
          Utf8.decode? ((Utf8.encode "北海/波").drop (Utf8.encode "北海/").length) = some rest) ∧
      (charts.Perm charts.reverse ∧ (charts.map Prod.fst).Nodup ∧
        (ofList charts.reverse).resolve "meer/eis/drift" =
          (ofList charts).resolve "meer/eis/drift") ∧
      (∃ e ∈ charts, e.1.toList <+: "meer/eis/drift".toList ∧ "meer/".length < e.1.length) ∧
        (ofList (charts ++ [("meer/", "http://localhost/sea/")])).resolve "meer/eis/drift" =
          (ofList charts).resolve "meer/eis/drift" := by
  have hbytes : Utf8.encode "北海/" <+: Utf8.encode "北海/波" := by decide
  have hperm : charts.Perm charts.reverse := (List.reverse_perm charts).symm
  have hdistinct : (charts.map Prod.fst).Nodup := by decide
  have hlonger : ∃ e ∈ charts, e.1.toList <+: "meer/eis/drift".toList ∧
      "meer/".length < e.1.length := by decide
  obtain ⟨hfound, -, -, horder, hfurther⟩ := resolve_longest charts "meer/eis/drift"
  obtain ⟨-, -, hrest, -, -⟩ := resolve_longest charts "北海/波"
  exact ⟨(hfound _).2 isLongest_charts, ⟨hbytes, hrest _ hbytes⟩,
    ⟨hperm, hdistinct, horder _ hperm hdistinct⟩, hlonger,
    hfurther charts [] "meer/" "http://localhost/sea/" (List.append_nil charts).symm
      (.inr hlonger)⟩

end Routes

end CoverageAccess
