import CoverageAccess.Proofs.Markup.Lookup
import CoverageAccess.Proofs.Picking
import CoverageAccess.Proofs.Request.Order
import CoverageAccess.Proofs.Request.Query
/-!
# Requests for what is not supported

Some parameters and elements ask for what is not supported: another reference system for the
subsets, a scaling by extent, an interpolation for single axes, another media type, parts of fields,
or two subsets of one dimension. The checks for them are spread over several readers, behind others
that may fail first. But where there is a request, all of them have been passed
(`IsOfQuery.not_unsupported`, `IsOfElement.not_unsupported`), so none of these options is in what
has been read, wherever it might stand.
-/

namespace CoverageAccess

namespace Query

variable {pairs : List (String × String)} {e : String × String} {key : String}

theorem get?_ofPairs_of_isFirst (hkey : Text.lower key = key)
    (h : IsFirst (fun e => Text.lower e.1 = key) pairs e) :
    (ofPairs pairs).get? key = some e.2 := by
  have hfind := (find?_eq_some_iff_isFirst fun _ => beq_iff_eq).2 h
  rw [get?, ofPairs, hkey, List.find?_map, Function.comp_def, hfind]
  rfl

theorem has_ofPairs_of_mem (he : e ∈ pairs) (hkey : Text.lower e.1 = Text.lower key) :
    (ofPairs pairs).has key = true := by
  have hmem : (Text.lower e.1, e.2) ∈ (ofPairs pairs).entries :=
    List.mem_map.2 ⟨e, he, rfl⟩
  rw [has, get?, Option.isSome_map, List.find?_isSome]
  exact ⟨_, hmem, beq_iff_eq.2 hkey⟩

end Query

namespace Request

/-- The parameters that are refused whatever their value is. -/
def unsupportedKeys : List String := ["subsettingcrs", "scaleextent", "interpolationperaxis"]

/-- The elements that are refused wherever they are and whatever they hold. -/
def unsupportedElements : List String :=
  ["subsettingCrs", "ScaleToExtent", "InterpolationPerAxis", "RangeInterval"]

/-- The characters by which an item of a list of fields asks for a part of a field. -/
def dividers : List Char := [':', '[', '(']

/-- Some parameter of a list asks for what is not supported. Of several media types, and of several
lists of fields, the first one counts. -/
inductive UnsupportedInQuery (pairs : List (String × String)) : Prop
  | option {e : String × String} (he : e ∈ pairs) (hkey : Text.lower e.1 ∈ unsupportedKeys)
  | mediaType {e : String × String}
      (he : IsFirst (fun e => Text.lower e.1 = "mediatype") pairs e) (hvalue : e.2 ≠ multipart)
  | item {e : String × String} {item : String} {c : Char}
      (he : IsFirst (fun e => Text.lower e.1 = "rangesubset") pairs e)
      (hitem : item ∈ Text.fields ',' e.2) (hc : c ∈ item.toList) (hdivider : c ∈ dividers)

open Markup

/-- Some element of a document asks for what is not supported. Of several media types the first one
counts. -/
inductive UnsupportedInElement (root : Element) : Prop
  | option {e : Element} (he : root.Within e) (hname : e.name ∈ unsupportedElements)
  | mediaType {e : Element} (he : IsFirst (fun e => e.name = "mediaType") root.children e)
      (htext : Text.trim e.text ≠ multipart)
  | dimension {a b : Element} (hab : [a, b].Sublist root.children)
      (ha : a.isTrimOrSlice = true) (hb : b.isTrimOrSlice = true)
      (hdimension : a.childText? "Dimension" = b.childText? "Dimension")

variable {q : Query} {root : Element} {r : Request}

section Queries

variable {pairs : List (String × String)}

theorem has_subsettingcrs_of_checkProtocol (h : checkProtocol q = .ok ()) :
    q.has "subsettingcrs" = false := by
  obtain ⟨-, -, h⟩ := bind_eq_ok_iff.1 h
  obtain ⟨-, -, h⟩ := bind_eq_ok_iff.1 h
  obtain ⟨-, -, h⟩ := bind_eq_ok_iff.1 h
  split at h
  next => cases h
  next hcrs => exact Bool.eq_false_iff.2 hcrs

theorem IsOfQuery.has_eq_false (hr : IsOfQuery q r) :
    ∀ key ∈ unsupportedKeys, q.has key = false := by
  have hs := Scaling.ofQuery_eq_ok_iff.1 hr.scaling
  have hcrs := has_subsettingcrs_of_checkProtocol hr.protocol
  have hperAxis : q.has "interpolationperaxis" = false := by
    rw [Query.has, hs.noPerAxis, Option.isSome_none]
  simp [unsupportedKeys, hcrs, hs.noExtent, hperAxis]

theorem not_mem_of_checkFieldItem {item name : String} (h : checkFieldItem item = .ok name) :
    ∀ c ∈ dividers, c ∉ item.toList := by
  unfold checkFieldItem at h
  split at h
  next => cases h
  next hcolon =>
    split at h
    next => cases h
    next hopen =>
      simp only [Text.mentions, Bool.or_eq_true, List.contains_iff_mem, not_or] at hcolon hopen
      simp [dividers, hcolon, hopen]

/-- No item of a list of fields that is read holds a divider. -/
theorem not_mem_of_fieldList {s item : String} {names : List String}
    (h : fieldList s = .ok names) (hitem : item ∈ Text.fields ',' s) :
    ∀ c ∈ dividers, c ∉ item.toList := by
  intro c hc hmem
  have hblank : ∀ c ∈ dividers, Text.isBlank c = false := by decide
  have htrim : c ∈ (Text.trim item).toList := by
    rw [Text.toList_trim]
    exact Text.mem_trimBy hmem (hblank c hc)
  have hne : Text.trim item ≠ "" := by
    intro hempty
    rw [hempty] at htrim
    cases htrim
  have hkept : Text.trim item ∈
      ((Text.fields ',' s).map Text.trim).filter fun item => item != "" :=
    List.mem_filter.2 ⟨List.mem_map_of_mem hitem, by simpa using hne⟩
  obtain ⟨name, hname⟩ := exists_of_mem_of_mapM h hkept
  exact not_mem_of_checkFieldItem hname c hc htrim

theorem IsOfQuery.not_unsupported (hr : IsOfQuery (.ofPairs pairs) r) :
    ¬UnsupportedInQuery pairs := by
  rintro (⟨he, hkey⟩ | ⟨he, hvalue⟩ | ⟨he, hitem, hc, hdivider⟩)
  · have hsmall : ∀ key ∈ unsupportedKeys, Text.lower key = key := by decide
    have hhas := Query.has_ofPairs_of_mem he (hsmall _ hkey).symm
    rw [hr.has_eq_false _ hkey] at hhas
    cases hhas
  · have hmedia := hr.allowed
    rw [Query.get?_ofPairs_of_isFirst rfl he] at hmedia
    exact hvalue (checkMediaType_eq_ok hmedia _ rfl)
  · have hfields := hr.fields
    rw [queryFields, Query.get?_ofPairs_of_isFirst rfl he] at hfields
    exact not_mem_of_fieldList hfields hitem _ hdivider hc

end Queries

section Documents

theorem descendants_ne_nil_of_within {e : Element} (he : root.Within e) :
    root.descendants e.name ≠ [] :=
  List.ne_nil_of_mem (Element.mem_descendants_iff.2 ⟨he, rfl⟩)

theorem descendants_of_checkRoot (h : checkRoot root = .ok ()) :
    root.descendants "subsettingCrs" = [] := by
  unfold checkRoot at h
  split at h
  next => cases h
  next =>
    split at h
    next => cases h
    next hcrs => exact Decidable.not_not.1 hcrs

theorem IsOfElement.descendants_eq_nil (hr : IsOfElement root r) :
    ∀ name ∈ unsupportedElements, root.descendants name = [] := by
  have hs := Scaling.ofElement_eq_ok_iff.1 hr.scaling
  have hcrs := descendants_of_checkRoot hr.kind
  have hintervals := (elementFields_eq_ok_iff.1 hr.fields).1
  simp [unsupportedElements, hcrs, hs.noExtent, hs.noPerAxis, hintervals]

theorem startsWith_of_isTrimOrSlice {e : Element} (h : e.isTrimOrSlice = true) :
    Text.startsWith "Dimension" e.name = true := by
  rcases Bool.or_eq_true_iff.1 h with hname | hname <;>
  · rw [beq_iff_eq.1 hname]
    decide

/-- Two trims or slices of a document that is read have different dimensions. -/
theorem IsOfElement.dimension_ne (hr : IsOfElement root r) {a b : Element}
    (hab : [a, b].Sublist root.children) (ha : a.isTrimOrSlice = true)
    (hb : b.isTrimOrSlice = true) : a.childText? "Dimension" ≠ b.childText? "Dimension" := by
  have hkept : [a, b].Sublist (dimensionElements root) := by
    have hfilter := hab.filter fun e => Text.startsWith "Dimension" e.name
    rwa [List.filter_eq_self.2
      (by simp [startsWith_of_isTrimOrSlice ha, startsWith_of_isTrimOrSlice hb])] at hfilter
  obtain ⟨s, hs, -⟩ := exists_of_mem_of_enterAll hr.subsets (hkept.subset (by simp : a ∈ [a, b]))
  obtain ⟨t, ht, -⟩ := exists_of_mem_of_enterAll hr.subsets (hkept.subset (by simp : b ∈ [a, b]))
  have hpairwise := (pairwise_of_enterAll hr.subsets).sublist hkept
  have hne := (List.pairwise_cons.1 hpairwise).1 b (by simp) s t hs ht
  rw [Subset.childText?_dimension hs, Subset.childText?_dimension ht]
  exact fun h => hne (Option.some.inj h)

theorem IsOfElement.not_unsupported (hr : IsOfElement root r) : ¬UnsupportedInElement root := by
  rintro (⟨he, hname⟩ | ⟨he, htext⟩ | ⟨hab, ha, hb, hdimension⟩)
  · exact descendants_ne_nil_of_within he (hr.descendants_eq_nil _ hname)
  · have hchild := (find?_eq_some_iff_isFirst fun _ => beq_iff_eq).2 he
    have hmedia := hr.allowed
    rw [Element.childText?, Element.child?, hchild] at hmedia
    exact htext (checkMediaType_eq_ok hmedia _ rfl)
  · exact hr.dimension_ne hab ha hb hdimension

end Documents

/-- Nothing that asks for what is not supported is read as a request, whatever else it holds. -/
theorem unsupported_refused :
    (∀ pairs, UnsupportedInQuery pairs → ∃ fault, ofQuery (.ofPairs pairs) = .error fault) ∧
      ∀ root, UnsupportedInElement root → ∃ fault, ofElement root = .error fault := by
  constructor
  · intro pairs h
    rw [exists_error_iff]
    rintro ⟨r, hr⟩
    exact (ofQuery_eq_ok_iff.1 hr).not_unsupported h
  · intro root h
    rw [exists_error_iff]
    rintro ⟨r, hr⟩
    exact (ofElement_eq_ok_iff.1 hr).not_unsupported h

/-- The parameters of a query for a field, with one more between them. -/
def fieldPairs (more : String × String) : List (String × String) :=
  [("coverageId", "sst"), more, ("rangeSubset", "u")]

/-- A document with two slices, of which the second one holds an extension. -/
def heldRoot (held : Element) : Element :=
  slicedRoot (sliceElement "lat" "1" []) (fieldElement "u")
    (sliceElement "lon" "2" [⟨"Extension", [], [held], ""⟩])

/-- A parameter or an element more, and a query or a document that would be read is refused. -/
theorem unsupported_refused_fields :
    ((∃ r, ofQuery (.ofPairs (fieldPairs ("format", "netcdf"))) = .ok r) ∧
        (UnsupportedInQuery (fieldPairs ("InterpolationPerAxis", "")) ∧
          ∃ fault, ofQuery (.ofPairs (fieldPairs ("InterpolationPerAxis", ""))) = .error fault) ∧
        UnsupportedInQuery (fieldPairs ("RANGESUBSET", "u, v:w")) ∧
          ∃ fault, ofQuery (.ofPairs (fieldPairs ("RANGESUBSET", "u, v:w"))) = .error fault) ∧
      (∃ r, ofElement (heldRoot (.named "RangeItem")) = .ok r) ∧
        (UnsupportedInElement (heldRoot (.named "RangeInterval")) ∧
          ∃ fault, ofElement (heldRoot (.named "RangeInterval")) = .error fault) ∧
        let root := slicedRoot (sliceElement "lat" "1" []) (fieldElement "u")
          (sliceElement "lat" "2" [])
        UnsupportedInElement root ∧ ∃ fault, ofElement root = .error fault := by
  obtain ⟨hqueries, hdocuments⟩ := unsupported_refused
  have hoption : UnsupportedInQuery (fieldPairs ("InterpolationPerAxis", "")) :=
    .option (List.mem_cons_of_mem _ List.mem_cons_self) (by decide)
  have hitem : UnsupportedInQuery (fieldPairs ("RANGESUBSET", "u, v:w")) :=
    .item ⟨[("coverageId", "sst")], [("rangeSubset", "u")], rfl, by decide, by decide⟩
      (by decide : " v:w" ∈ _) (by decide : ':' ∈ _) (by decide)
  have hheld : UnsupportedInElement (heldRoot (.named "RangeInterval")) := by
    refine .option (e := .named "RangeInterval") ?_ (by decide)
    have hslice : (sliceElement "lon" "2" [⟨"Extension", [], [.named "RangeInterval"], ""⟩]) ∈
        (heldRoot (.named "RangeInterval")).children := by simp [heldRoot, slicedRoot]
    have hextension : (⟨"Extension", [], [.named "RangeInterval"], ""⟩ : Element) ∈
        (sliceElement "lon" "2" [⟨"Extension", [], [.named "RangeInterval"], ""⟩]).children := by
      simp [sliceElement]
    exact .deeper hslice (.deeper hextension (.child List.mem_cons_self))
  have hdimension : UnsupportedInElement (slicedRoot (sliceElement "lat" "1" [])
      (fieldElement "u") (sliceElement "lat" "2" [])) := by
    have hslices : [sliceElement "lat" "1" [], sliceElement "lat" "2" []].Sublist
        (slicedRoot (sliceElement "lat" "1" []) (fieldElement "u")
          (sliceElement "lat" "2" [])).children :=
      .cons _ (.cons_cons _ (.cons _ (.cons_cons _ .slnil)))
    exact .dimension hslices rfl rfl rfl
  exact ⟨⟨⟨_, rfl⟩, ⟨hoption, hqueries _ hoption⟩, hitem, hqueries _ hitem⟩, ⟨_, rfl⟩,
    ⟨hheld, hdocuments _ hheld⟩, hdimension, hdocuments _ hdimension⟩

end Request

end CoverageAccess
