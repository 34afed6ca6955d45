import CoverageAccess.Constraint
import CoverageAccess.Proofs.Request.Entering
import CoverageAccess.Proofs.Request.Parts
import CoverageAccess.Proofs.Scaling.Query
import Mathlib.Data.List.Perm.Basic
/-!
# The order of subsets

Two queries that differ in the order of their subsets are read as the same request, or both are
refused. Of the children of a document, the trims and the slices may likewise stand in any order.
But the fields, the output reference system and the interpolation method are sought at any depth, so
a document whose trims or slices hold such elements inside them names the fields in the order of the
trims and slices, and takes the first of the systems and the first of the methods. The main result
is `reordered_alike`.
-/

namespace CoverageAccess

/-- What is sought among some members is found alike in lists that hold those in the same order. -/
theorem find?_eq_of_filter_eq {α : Type} {p q : α → Bool} {l l' : List α}
    (h : l.filter p = l'.filter p) (hpq : ∀ a, q a → p a) : l.find? q = l'.find? q := by
  have hfind (l : List α) : (l.filter p).find? q = l.find? q := by
    rw [List.find?_filter]
    congr 1
    funext a
    cases hq : q a
    · simp
    · simp [hpq a hq]
  rw [← hfind l, h, hfind l']

namespace Query

/-- The same entries, where those of one key stand in the same order unless the key is `subset`. -/
structure Reordered (q q' : Query) : Prop where
  perm : q.entries.Perm q'.entries
  order : ∀ key, key ≠ "subset" →
    q.entries.filter (fun e => e.1 == key) = q'.entries.filter fun e => e.1 == key

variable {q q' : Query} {key : String}

/-- Only the keys that are there have to be looked at. -/
theorem reordered_iff : q.Reordered q' ↔ q.entries.Perm q'.entries ∧ ∀ e ∈ q.entries,
    e.1 ≠ "subset" →
      q.entries.filter (fun d => d.1 == e.1) = q'.entries.filter fun d => d.1 == e.1 := by
  constructor
  · exact fun h => ⟨h.perm, fun e _ => h.order e.1⟩
  · rintro ⟨hperm, horder⟩
    refine ⟨hperm, fun key hkey => ?_⟩
    by_cases hmem : ∃ e ∈ q.entries, e.1 = key
    · obtain ⟨e, he, rfl⟩ := hmem
      exact horder e he hkey
    · have hnil : q.entries.filter (fun e => e.1 == key) = [] := by
        rw [List.filter_eq_nil_iff]
        exact fun e he hk => hmem ⟨e, he, beq_iff_eq.1 hk⟩
      have hnil' : (q'.entries.filter fun e => e.1 == key) = [] := by
        have := hperm.filter fun e => e.1 == key
        rw [hnil] at this
        exact this.nil_eq.symm
      rw [hnil, hnil']

instance : Decidable (q.Reordered q') :=
  decidable_of_iff _ reordered_iff.symm

theorem Reordered.symm (h : q.Reordered q') : q'.Reordered q :=
  ⟨h.perm.symm, fun key hkey => (h.order key hkey).symm⟩

theorem Reordered.getAll_perm (h : q.Reordered q') (key : String) :
    (q.getAll key).Perm (q'.getAll key) :=
  (h.perm.filter _).map _

theorem Reordered.get?_eq (h : q.Reordered q') (hkey : Text.lower key ≠ "subset") :
    q'.get? key = q.get? key := by
  rw [get?_eq_head?, get?_eq_head?, getAll, getAll, h.order _ hkey]

theorem Reordered.has_eq (h : q.Reordered q') (hkey : Text.lower key ≠ "subset") :
    q'.has key = q.has key := by
  rw [has, has, h.get?_eq hkey]

end Query

namespace Scaling

variable {q q' : Query}

theorem ofQuery_eq_of_reordered (h : q.Reordered q') : ofQuery q' = ofQuery q := by
  have hkeys : ∀ key ∈ modeKeys, Text.lower key ≠ "subset" := by decide
  have hmodes : modeKeys.filter q'.has = modeKeys.filter q.has :=
    List.filter_congr fun key hkey => h.has_eq (hkeys key hkey)
  have hextent : q'.has "scaleextent" = q.has "scaleextent" := h.has_eq (by decide)
  have hperAxis : q'.get? "interpolationperaxis" = q.get? "interpolationperaxis" :=
    h.get?_eq (by decide)
  have hcrs : q'.get? "outputcrs" = q.get? "outputcrs" := h.get?_eq (by decide)
  have hmethod : q'.get? "interpolation" = q.get? "interpolation" := h.get?_eq (by decide)
  have hmode : queryMode q' = queryMode q := by
    have hfactor : q'.get? "scalefactor" = q.get? "scalefactor" := h.get?_eq (by decide)
    have haxes : q'.get? "scaleaxes" = q.get? "scaleaxes" := h.get?_eq (by decide)
    have hsize : q'.get? "scalesize" = q.get? "scalesize" := h.get?_eq (by decide)
    simp only [queryMode, hfactor, haxes, hsize]
  simp only [ofQuery, hmodes, hextent, hperAxis, hmode, hcrs, hmethod]

end Scaling

namespace Request

variable {q q' : Query} {r : Request}

theorem checkProtocol_eq_of_reordered (h : q.Reordered q') :
    checkProtocol q' = checkProtocol q := by
  have hservice : q'.get? "service" = q.get? "service" := h.get?_eq (by decide)
  have hversion : q'.get? "version" = q.get? "version" := h.get?_eq (by decide)
  have hrequest : q'.get? "request" = q.get? "request" := h.get?_eq (by decide)
  have hcrs : q'.has "subsettingcrs" = q.has "subsettingcrs" := h.has_eq (by decide)
  simp only [checkProtocol, hservice, hversion, hrequest, hcrs]

theorem IsOfQuery.of_reordered (h : q.Reordered q') (hr : IsOfQuery q r) : IsOfQuery q' r := by
  have hid : q'.get? "coverageid" = q.get? "coverageid" := h.get?_eq (by decide)
  have hmedia : q'.get? "mediatype" = q.get? "mediatype" := h.get?_eq (by decide)
  have hformat : q'.get? "format" = q.get? "format" := h.get?_eq (by decide)
  have hfields : q'.get? "rangesubset" = q.get? "rangesubset" := h.get?_eq (by decide)
  exact {
    protocol := (checkProtocol_eq_of_reordered h).trans hr.protocol
    coverage := by
      rw [queryCoverage, hid]
      exact hr.coverage
    allowed := hmedia ▸ hr.allowed
    format := hr.format.trans hformat.symm
    mediaType := hr.mediaType.trans hmedia.symm
    fields := by
      rw [queryFields, hfields]
      exact hr.fields
    subsets := (enterAll_eq_ok_iff_of_perm (h.getAll_perm "subset")).1 hr.subsets
    scaling := (Scaling.ofQuery_eq_of_reordered h).trans hr.scaling }

/-- The order of its subsets is not seen in what a query is read as. -/
theorem ofQuery_reordered (h : q.Reordered q') : Together Eq (ofQuery q) (ofQuery q') := by
  refine .of_forall_iff fun r => ?_
  rw [ofQuery_eq_ok_iff, ofQuery_eq_ok_iff]
  exact ⟨.of_reordered h, .of_reordered h.symm⟩

end Request

namespace Markup

namespace Element

variable {root root' : Element} {name : String}

/-- A trim or a slice. -/
def isTrimOrSlice (e : Element) : Bool :=
  e.name == "DimensionTrim" || e.name == "DimensionSlice"

/-- The same element, with the trims and slices among its children in another order. -/
structure Reordered (root root' : Element) : Prop where
  name : root.name = root'.name
  attributes : root.attributes = root'.attributes
  text : root.text = root'.text
  perm : root.children.Perm root'.children
  order : root.children.filter (fun e => !e.isTrimOrSlice) =
    root'.children.filter fun e => !e.isTrimOrSlice

theorem Reordered.symm (h : root.Reordered root') : root'.Reordered root :=
  ⟨h.name.symm, h.attributes.symm, h.text.symm, h.perm.symm, h.order.symm⟩

theorem descendantsAll_perm {es fs : List Element} (h : es.Perm fs) :
    (descendantsAll name es).Perm (descendantsAll name fs) := by
  have heq (es : List Element) : descendantsAll name es =
      es.flatMap fun e => (if e.name = name then [e] else []) ++ e.descendants name := by
    induction es with
    | nil => rfl
    | cons e es ih => rw [descendantsAll_cons, ih, List.flatMap_cons]
  rw [heq, heq]
  exact h.flatMap_right _

theorem Reordered.descendants_perm (h : root.Reordered root') (name : String) :
    (root.descendants name).Perm (root'.descendants name) := by
  rw [descendants_eq, descendants_eq]
  exact descendantsAll_perm h.perm

theorem Reordered.descendants_eq_nil (h : root.Reordered root')
    (hnil : root.descendants name = []) : root'.descendants name = [] := by
  have hperm := h.descendants_perm name
  rw [hnil] at hperm
  exact hperm.nil_eq.symm

theorem Reordered.childText?_eq (h : root.Reordered root') (htrim : name ≠ "DimensionTrim")
    (hslice : name ≠ "DimensionSlice") : root'.childText? name = root.childText? name := by
  have hpq : ∀ e : Element, e.name == name → !e.isTrimOrSlice := by
    intro e he
    simp [isTrimOrSlice, beq_iff_eq.1 he, htrim, hslice]
  rw [childText?, childText?, child?, child?, find?_eq_of_filter_eq h.order hpq]

/-- Elements of a name that no trim or slice holds keep their order. -/
theorem Reordered.descendants_eq_of_out (h : root.Reordered root') (htrim : name ≠ "DimensionTrim")
    (hslice : name ≠ "DimensionSlice")
    (hout : ∀ e ∈ root.children, e.isTrimOrSlice → e.descendants name = []) :
    root'.descendants name = root.descendants name := by
  -- The trims and slices add nothing to the descendants, and what is left has one order.
  have hdrop (es : List Element) (hout : ∀ e ∈ es, e.isTrimOrSlice → e.descendants name = []) :
      descendantsAll name (es.filter fun e => !e.isTrimOrSlice) = descendantsAll name es := by
    induction es with
    | nil => rfl
    | cons e es ih =>
        have hrest := ih fun d hd => hout d (List.mem_cons_of_mem _ hd)
        rw [descendantsAll_cons, ← hrest]
        by_cases he : e.isTrimOrSlice
        · have hname : e.name ≠ name := by
            rintro rfl
            simp [isTrimOrSlice, htrim, hslice] at he
          rw [List.filter_cons_of_neg (by simp [he]), if_neg hname,
            hout e List.mem_cons_self he]
          rfl
        · rw [List.filter_cons_of_pos (by simp [he]), descendantsAll_cons]
  have hout' : ∀ e ∈ root'.children, e.isTrimOrSlice → e.descendants name = [] :=
    fun e he => hout e (h.perm.mem_iff.2 he)
  rw [descendants_eq, descendants_eq, ← hdrop _ hout', ← hdrop _ hout, h.order]

end Element

end Markup

namespace Scaling

open Markup

variable {root root' : Element} {s : Scaling}

/-- What differs is only which of several reference systems or methods is the first. -/
theorem IsOfElement.of_reordered (h : root.Reordered root') (hs : IsOfElement root s) :
    IsOfElement root' ⟨s.mode, firstText? root' "outputCrs",
      firstText? root' "globalInterpolation"⟩ := by
  have hmodes : (modeElements.flatMap fun n => root.descendants n).Perm
      (modeElements.flatMap fun n => root'.descendants n) :=
    List.Perm.flatMap_left _ fun n _ => h.descendants_perm n
  -- Of each name there is at most one element, so there is no other order of them.
  have heq : ∀ n ∈ modeElements, root'.descendants n = root.descendants n := by
    intro n hn
    have hone := hs.length_le_one hn
    have hperm := h.descendants_perm n
    match hd : root.descendants n with
    | [] => exact h.descendants_eq_nil hd
    | [e] =>
        rw [hd] at hperm
        exact (List.singleton_perm.1 hperm).symm
    | _ :: _ :: _ => simp [hd] at hone
  have hmode : elementMode root' = elementMode root := by
    simp only [elementMode, heq "ScaleByFactor" (by decide), heq "ScaleAxesByFactor" (by decide),
      heq "ScaleToSize" (by decide)]
  exact {
    single := hmodes.length_eq ▸ hs.single
    noExtent := h.descendants_eq_nil hs.noExtent
    noPerAxis := h.descendants_eq_nil hs.noPerAxis
    mode := hmode.trans hs.mode
    outputCrs := rfl
    interpolation := rfl }

end Scaling

namespace Request

open Markup

variable {root root' : Element} {r r' : Request}

/-- The requests of two documents, equal but for what is sought at any depth: the fields are the
same in some order, and each part is the same if the elements it is taken from stand in the same
order. -/
structure Alike (root root' : Element) (r r' : Request) : Prop where
  coverageId : r.coverageId = r'.coverageId
  format : r.format = r'.format
  mediaType : r.mediaType = r'.mediaType
  subsets : r.subsets = r'.subsets
  mode : r.scaling.mode = r'.scaling.mode
  fields_perm : r.fields.Perm r'.fields
  fields : root'.descendants "RangeComponent" = root.descendants "RangeComponent" →
    r.fields = r'.fields
  outputCrs : root'.descendants "outputCrs" = root.descendants "outputCrs" →
    r.scaling.outputCrs = r'.scaling.outputCrs
  interpolation :
    root'.descendants "globalInterpolation" = root.descendants "globalInterpolation" →
      r.scaling.interpolation = r'.scaling.interpolation

theorem elementFields_eq_ok_iff {names : List String} :
    elementFields root = .ok names ↔ root.descendants "RangeInterval" = [] ∧
      names = ((root.descendants "RangeComponent").map fun e => Text.trim e.text).filter
        fun name => name != "" := by
  unfold elementFields
  split
  next h => simp [h]
  next h =>
    rw [Except.ok.injEq, and_iff_right (Decidable.not_not.1 h)]
    exact eq_comm

theorem IsOfElement.of_reordered (h : root.Reordered root') (hr : IsOfElement root r) :
    ∃ r', IsOfElement root' r' ∧ Alike root root' r r' := by
  have hscaling := Scaling.ofElement_eq_ok_iff.1 hr.scaling
  obtain ⟨hintervals, hfields⟩ := elementFields_eq_ok_iff.1 hr.fields
  have hid : root'.childText? "CoverageId" = root.childText? "CoverageId" :=
    h.childText?_eq (by decide) (by decide)
  have hformat : root'.childText? "format" = root.childText? "format" :=
    h.childText?_eq (by decide) (by decide)
  have hmedia : root'.childText? "mediaType" = root.childText? "mediaType" :=
    h.childText?_eq (by decide) (by decide)
  have hkind : checkRoot root' = checkRoot root := by
    have hcrs : root'.descendants "subsettingCrs" = [] ↔ root.descendants "subsettingCrs" = [] :=
      ⟨h.symm.descendants_eq_nil, h.descendants_eq_nil⟩
    simp only [checkRoot, h.name, ne_eq, hcrs]
  refine ⟨{ r with
    fields := ((root'.descendants "RangeComponent").map fun e => Text.trim e.text).filter
      fun name => name != ""
    scaling := ⟨r.scaling.mode, Scaling.firstText? root' "outputCrs",
      Scaling.firstText? root' "globalInterpolation"⟩ }, ?_, ?_⟩
  · exact {
      kind := hkind.trans hr.kind
      coverage := by
        rw [elementCoverage, hid]
        exact hr.coverage
      allowed := hmedia ▸ hr.allowed
      format := hr.format.trans hformat.symm
      mediaType := hr.mediaType.trans hmedia.symm
      fields := elementFields_eq_ok_iff.2 ⟨h.descendants_eq_nil hintervals, rfl⟩
      subsets := (enterAll_eq_ok_iff_of_perm (h.perm.filter _)).1 hr.subsets
      scaling := Scaling.ofElement_eq_ok_iff.2 (.of_reordered h hscaling) }
  · exact {
      coverageId := rfl
      format := rfl
      mediaType := rfl
      subsets := rfl
      mode := rfl
      fields_perm := by
        rw [hfields]
        exact ((h.descendants_perm _).map _).filter _
      fields := fun heq => by rw [hfields, heq]
      outputCrs := fun heq => by simp only [hscaling.outputCrs, Scaling.firstText?, heq]
      interpolation := fun heq => by
        simp only [hscaling.interpolation, Scaling.firstText?, heq] }

theorem ofElement_reordered (h : root.Reordered root') :
    Together (Alike root root') (ofElement root) (ofElement root') := by
  refine .of_iff ?_ fun r r' hr hr' => ?_
  · simp only [ofElement_eq_ok_iff]
    constructor
    · rintro ⟨r, hr⟩
      obtain ⟨r', hr', -⟩ := hr.of_reordered h
      exact ⟨r', hr'⟩
    · rintro ⟨r', hr'⟩
      obtain ⟨r, hr, -⟩ := hr'.of_reordered h.symm
      exact ⟨r, hr⟩
  · obtain ⟨u, hu, halike⟩ := (ofElement_eq_ok_iff.1 hr).of_reordered h
    rw [ofElement_eq_ok_iff.2 hu] at hr'
    cases hr'
    exact halike

/-- The names of the elements that are sought at any depth and may be several. -/
def looseNames : List String :=
  ["RangeComponent", "outputCrs", "globalInterpolation"]

theorem Alike.eq (h : Alike root root' r r')
    (hloose : ∀ name ∈ looseNames, root'.descendants name = root.descendants name) : r = r' := by
  obtain ⟨id, format, mediaType, fields, subsets, mode, outputCrs, interpolation⟩ := r
  obtain ⟨id', format', mediaType', fields', subsets', mode', outputCrs', interpolation'⟩ := r'
  obtain ⟨hid, hformat, hmedia, hsubsets, hmode, -, hfields, hcrs, hmethod⟩ := h
  have hfields := hfields (hloose "RangeComponent" (by decide))
  have hcrs := hcrs (hloose "outputCrs" (by decide))
  have hmethod := hmethod (hloose "globalInterpolation" (by decide))
  dsimp only at *
  subst hid hformat hmedia hsubsets hmode hfields hcrs hmethod
  rfl

/-- The expression of a request, if it has been read. -/
def expressionOf (c : Coverage) (r : Except Fault Request) : Except Fault String := do
  let r ← r
  c.expression r.fields r.subsets r.scaling

/-- Both are refused, or both are read as the same request; so the expressions are the same. -/
structure Interchangeable (x y : Except Fault Request) : Prop where
  requests : Together Eq x y
  expressions : ∀ c : Coverage, Together Eq (expressionOf c x) (expressionOf c y)

theorem Interchangeable.of_together {x y : Except Fault Request} (h : Together Eq x y) :
    Interchangeable x y := by
  refine ⟨h, fun c => ?_⟩
  cases h with
  | failed => exact .failed
  | answered h => exact .of_forall_iff fun text => by rw [h]

/-- Queries that differ in the order of their subsets cannot be told apart. Documents that differ in
the order of their trims and slices are read alike, and cannot be told apart either if the elements
that are sought at any depth keep their order; in particular if no trim or slice holds any. -/
theorem reordered_alike :
    (∀ q q' : Query, q.Reordered q' → Interchangeable (ofQuery q) (ofQuery q')) ∧
      ∀ root root' : Element, root.Reordered root' →
        Together (Alike root root') (ofElement root) (ofElement root') ∧
          ((∀ name ∈ looseNames, root'.descendants name = root.descendants name) →
            Interchangeable (ofElement root) (ofElement root')) ∧
          ((∀ e ∈ root.children, e.isTrimOrSlice → ∀ name ∈ looseNames,
              e.descendants name = []) →
            Interchangeable (ofElement root) (ofElement root')) := by
  refine ⟨fun q q' h => .of_together (ofQuery_reordered h), fun root root' h => ?_⟩
  have halike := ofElement_reordered h
  have hsame (hloose : ∀ name ∈ looseNames, root'.descendants name = root.descendants name) :
      Interchangeable (ofElement root) (ofElement root') :=
    .of_together (halike.imp fun _ _ h => h.eq hloose)
  refine ⟨halike, hsame, fun hout => hsame fun name hname => ?_⟩
  have hother : ∀ name ∈ looseNames, name ≠ "DimensionTrim" ∧ name ≠ "DimensionSlice" := by decide
  exact h.descendants_eq_of_out (hother name hname).1 (hother name hname).2 fun e he hslice =>
    hout e he hslice name hname

/-- A query for a window and a level. -/
def window : Query :=
  .ofPairs [("coverageId", "sst"), ("subset", "lat(40,50)"), ("scaleFactor", "2"),
    ("SUBSET", "lon(3)")]

/-- The same with its subsets first. -/
def windowFirst : Query :=
  .ofPairs [("subset", "lon(3)"), ("subset", "lat(40,50)"), ("scalefactor", "2"),
    ("coverageid", "sst")]

/-- A slice that holds further elements. -/
def sliceElement (dimension point : String) (held : List Element) : Element :=
  { name := "DimensionSlice"
    attributes := []
    children := ⟨"Dimension", [], [], dimension⟩ :: ⟨"SlicePoint", [], [], point⟩ :: held
    text := "" }

def fieldElement (name : String) : Element := ⟨"RangeComponent", [], [], name⟩

/-- The root of a document that holds two slices and something between them. -/
def slicedRoot (first between last : Element) : Element :=
  ⟨"GetCoverage", [], [⟨"CoverageId", [], [], "sst"⟩, first, between, last], ""⟩

/-- Two slices change places. -/
theorem reordered_slicedRoot (first between last : Element) (hfirst : first.isTrimOrSlice = true)
    (hlast : last.isTrimOrSlice = true) :
    (slicedRoot first between last).Reordered (slicedRoot last between first) := by
  refine ⟨rfl, rfl, rfl, .cons _ ?_, ?_⟩
  · have hlastFirst : ([first, between] ++ [last]).Perm ([last] ++ [first, between]) :=
      List.perm_append_comm
    exact hlastFirst.trans (.cons _ (.swap _ _ _))
  · simp [slicedRoot, List.filter_cons, hfirst, hlast]

theorem reordered_alike_window :
    (window.Reordered windowFirst ∧ (∃ r, ofQuery window = .ok r) ∧
        Interchangeable (ofQuery window) (ofQuery windowFirst)) ∧
      let lat := sliceElement "lat" "1" []
      let lon := sliceElement "lon" "2" []
      let root := slicedRoot lat (fieldElement "u") lon
      let root' := slicedRoot lon (fieldElement "u") lat
      root.Reordered root' ∧ (∃ r, ofElement root = .ok r) ∧
        Interchangeable (ofElement root) (ofElement root') := by
  obtain ⟨hqueries, hroots⟩ := reordered_alike
  have hwindow : window.Reordered windowFirst := by decide
  have hroot := reordered_slicedRoot (sliceElement "lat" "1" []) (fieldElement "u")
    (sliceElement "lon" "2" []) rfl rfl
  refine ⟨⟨hwindow, ⟨_, rfl⟩, hqueries _ _ hwindow⟩, hroot, ⟨_, rfl⟩, ?_⟩
  exact (hroots _ _ hroot).2.2 (by decide)

/-- Two fields over two axes. -/
def currents : Coverage :=
  { id := "sst"
    coordinates := [⟨"lat", "y", "", 10, none⟩, ⟨"lon", "x", "", 20, none⟩]
    fields := [⟨"u", "east", none, none⟩, ⟨"v", "north", none, none⟩]
    nativeFormat := "netcdf"
    box := none
    datasetUrl := none }

/-- What a document with two slices asks for, if it names these fields. -/
def slicedRequest (fields : List String) : Request :=
  { coverageId := "sst"
    format := none
    mediaType := none
    fields
    subsets := .ofList [("lat", ⟨"lat", .slice "1", true⟩), ("lon", ⟨"lon", .slice "2", true⟩)]
    scaling := .none }

/-- A document whose slices hold the names of the fields. -/
def nestedRoot : Element :=
  slicedRoot (sliceElement "lat" "1" [fieldElement "u"]) (.named "Extension")
    (sliceElement "lon" "2" [fieldElement "v"])

/-- The same with the slices in the other order. -/
def nestedRootTurned : Element :=
  slicedRoot (sliceElement "lon" "2" [fieldElement "v"]) (.named "Extension")
    (sliceElement "lat" "1" [fieldElement "u"])

/-- The fields change places with the slices that hold their names. -/
theorem not_interchangeable_nestedRoot :
    nestedRoot.Reordered nestedRootTurned ∧
      ofElement nestedRoot = .ok (slicedRequest ["u", "v"]) ∧
      ofElement nestedRootTurned = .ok (slicedRequest ["v", "u"]) ∧
      expressionOf currents (ofElement nestedRoot) = .ok "east[1][2],north[1][2]" ∧
      expressionOf currents (ofElement nestedRootTurned) = .ok "north[1][2],east[1][2]" ∧
      ¬Interchangeable (ofElement nestedRoot) (ofElement nestedRootTurned) := by
  have hread : ofElement nestedRoot = .ok (slicedRequest ["u", "v"]) := by rfl
  have hread' : ofElement nestedRootTurned = .ok (slicedRequest ["v", "u"]) := by rfl
  have htext : expressionOf currents (ofElement nestedRoot) = .ok "east[1][2],north[1][2]" := by
    rw [hread]
    rfl
  have htext' : expressionOf currents (ofElement nestedRootTurned) =
      .ok "north[1][2],east[1][2]" := by
    rw [hread']
    rfl
  refine ⟨reordered_slicedRoot _ _ _ rfl rfl, hread, hread', htext, htext', fun h => ?_⟩
  have hsame := h.expressions currents
  rw [htext, htext'] at hsame
  cases hsame with
  | answered heq => exact absurd heq (by decide)

end Request

end CoverageAccess
