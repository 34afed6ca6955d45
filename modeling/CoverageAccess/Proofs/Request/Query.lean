import CoverageAccess.Proofs.Request.Document
import CoverageAccess.Proofs.Request.Parts
import CoverageAccess.Proofs.Scaling.Query
/-!
# Requests read from queries

The reader of queries trims the coverage, the fields, the dimensions and the axes, so that a document
can express whatever it answers (`expressible_of_parseQuery`). It leaves the reference system, the
interpolation method and the format as they are, and what is left of the bounds has no quotes and no
line blanks around it, but possibly other blanks.
-/

namespace CoverageAccess

theorem Text.trim_ne_empty {s : String} (h : isAllBlank s = false) : trim s ≠ "" := by
  intro hs
  have hnil : trimBy isBlank s.toList = [] := by
    rw [← toList_trim, hs]
    rfl
  obtain ⟨a, b, hall, ha, hb⟩ := eq_append_trimBy isBlank s.toList
  rw [hnil, List.append_nil] at hall
  rw [isAllBlank, hall, List.all_append, List.all_eq_true.2 ha, List.all_eq_true.2 hb] at h
  cases h

/-- A subset of a query is filed under a dimension that is there and trimmed. -/
theorem Subset.dimension_of_ofQuery {text : String} {s : Subset} (h : ofQuery text = .ok s) :
    s.dimension ≠ "" ∧ Text.trim s.dimension = s.dimension := by
  obtain ⟨d, hne, htrim, ⟨low, high, h⟩ | ⟨point, h⟩⟩ := ofQuery_eq_ok h
  · obtain ⟨-, -, -, rfl⟩ := trim_eq_ok_iff.1 h
    exact ⟨hne, htrim⟩
  · obtain ⟨-, rfl⟩ := slice_eq_ok_iff.1 h
    exact ⟨hne, htrim⟩

namespace Request

variable {q : Query} {r : Request}

theorem queryCoverage_eq_ok {id : String} (h : queryCoverage q = .ok id) :
    id ≠ "" ∧ Text.trim id = id := by
  unfold queryCoverage at h
  split at h
  · cases h
  · split at h
    next => cases h
    next hblank =>
      cases h
      exact ⟨Text.trim_ne_empty (by simpa using hblank), Text.trim_trim _⟩

theorem checkMediaType_eq_ok {o : Option String} (h : checkMediaType o = .ok ()) :
    ∀ m ∈ o, m = multipart := by
  rintro m ⟨⟩
  by_contra hm
  rw [checkMediaType, if_neg hm] at h
  cases h

theorem checkFieldItem_eq_ok {item name : String} (h : checkFieldItem item = .ok name) :
    item = name := by
  unfold checkFieldItem at h
  split at h
  · cases h
  · split at h
    · cases h
    · exact Except.ok.inj h

theorem mapM_checkFieldItem_eq_ok {items names : List String}
    (h : items.mapM checkFieldItem = .ok names) : items = names :=
  List.forall₂_eq_eq_eq ▸ (mapM_eq_ok_iff.1 h).imp fun _ _ => checkFieldItem_eq_ok

theorem queryFields_eq_ok {names : List String} (h : queryFields q = .ok names) :
    ∀ name ∈ names, name ≠ "" ∧ Text.trim name = name := by
  unfold queryFields at h
  split at h
  · cases h
    simp
  · rw [← mapM_checkFieldItem_eq_ok h]
    intro name hname
    obtain ⟨hmem, hne⟩ := List.mem_filter.1 hname
    obtain ⟨item, -, rfl⟩ := List.mem_map.1 hmem
    exact ⟨by simpa using hne, Text.trim_trim _⟩

/-- A document can express the request of a query, and the subsets are made by the constructors. -/
theorem expressible_of_ofQuery (h : ofQuery q = .ok r) :
    r.Expressible ∧ ∀ s ∈ r.subsets.values, s.Inferred := by
  have hr := ofQuery_eq_ok_iff.1 h
  have hread : ∀ e ∈ r.subsets.entries,
      e.1 = e.2.dimension ∧ ∃ text, Subset.ofQuery text = .ok e.2 := by
    intro e he
    rcases exists_of_mem_entries hr.subsets he with he | ⟨hkey, text, -, htext⟩
    · cases he
    · exact ⟨hkey, text, htext⟩
  refine ⟨?_, ?_⟩
  · exact {
      coverage := queryCoverage_eq_ok hr.coverage
      mediaType := by
        rw [hr.mediaType]
        exact checkMediaType_eq_ok hr.allowed
      fields := queryFields_eq_ok hr.fields
      mode := Scaling.ofQuery_eq_ok hr.scaling
      subsets := by
        intro e he
        obtain ⟨hkey, text, htext⟩ := hread e he
        rw [hkey]
        exact ⟨rfl, Subset.dimension_of_ofQuery htext⟩ }
  · intro s hs
    obtain ⟨e, he, rfl⟩ := List.mem_map.1 hs
    obtain ⟨-, text, htext⟩ := hread e he
    exact .ofQuery htext

theorem expressible_of_parseQuery {text : String} (h : parseQuery text = .ok r) :
    r.Expressible ∧ ∀ s ∈ r.subsets.values, s.Inferred := by
  obtain ⟨q, -, h⟩ := bind_eq_ok_iff.1 h
  exact expressible_of_ofQuery h

end Request

end CoverageAccess
