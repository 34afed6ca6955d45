import CoverageAccess.Proofs.Request.Entering
import CoverageAccess.Proofs.Scaling.Markup
import CoverageAccess.Proofs.Subset.Markup
import CoverageAccess.Request.Markup
/-!
# Requests written as documents

The document of a request is read as the request with its format, its reference system and its
interpolation method trimmed, and with the subsets that the constructors make of the trimmed bounds
(`parseDocument_document`). If these parts are trimmed already, the request is read back; this is
the main result, `parseDocument_document_eq_ok`.
-/

namespace CoverageAccess

namespace Request

open Markup

/-- The elements that the fields of a request are read as. -/
def fieldsElements (names : List String) : List Element :=
  if names = [] then []
  else
    [⟨"RangeSubset", [],
      names.map fun name => ⟨"RangeItem", [], [.leaf "RangeComponent" name], ""⟩, ""⟩]

/-- The elements that the extension of a request is read as. -/
def extensionElements (r : Request) : List Element :=
  fieldsElements r.fields ++ r.scaling.elements

/-- The root that a request is read as. -/
def element (r : Request) : Element :=
  { name := "GetCoverage"
    attributes := [("service", "WCS"), ("version", "2.0.1")]
    children :=
      .leaf "CoverageId" r.coverageId :: r.subsets.values.map Subset.element ++
        r.format.toList.map (.leaf "format") ++ r.mediaType.toList.map (.leaf "mediaType") ++
        if r.extensionElements.isEmpty then []
        else [⟨"Extension", [], r.extensionElements, ""⟩]
    text := "" }

section Written

variable (r : Request)

theorem elements_fieldsNodes (names : List String) :
    Node.elements (fieldsNodes names) = fieldsElements names := by
  cases names with
  | nil => rfl
  | cons name names =>
      change Node.elements [.element "rsub:RangeSubset" [] ((name :: names).map fieldNode)] = _
      have hitems :
          (Node.element "rsub:RangeSubset" [] ((name :: names).map fieldNode)).element? =
            some ⟨"RangeSubset", [], (name :: names).map fun name =>
              ⟨"RangeItem", [], [.leaf "RangeComponent" name], ""⟩, ""⟩ :=
        Node.element?_map fun n _ => rfl
      rw [fieldsElements, if_neg (List.cons_ne_nil _ _), Node.elements, hitems]
      rfl

theorem isSome_of_mem_fieldsNodes {names : List String} {n : Node} (hn : n ∈ fieldsNodes names) :
    n.element?.isSome := by
  cases names with
  | nil => cases hn
  | cons name names =>
      rw [List.mem_singleton.1 hn]
      rfl

theorem isSome_of_mem_toNodes {s : Scaling} {n : Node} (hn : n ∈ s.toNodes) :
    n.element?.isSome := by
  simp only [Scaling.toNodes, List.mem_append, List.mem_map, Option.mem_toList] at hn
  rcases hn with (⟨m, -, rfl⟩ | ⟨m, -, rfl⟩) | ⟨c, -, rfl⟩
  · rw [m.element?_toNode]
    rfl
  · rfl
  · rfl

theorem elements_extensionNodes :
    Node.elements r.extensionNodes =
      if r.extensionElements.isEmpty then []
      else [⟨"Extension", [], r.extensionElements, ""⟩] := by
  have helements : Node.elements (fieldsNodes r.fields ++ r.scaling.toNodes) =
      r.extensionElements := by
    rw [Node.elements_append, elements_fieldsNodes, Scaling.elements_toNodes, extensionElements]
  have hsome : ∀ n ∈ fieldsNodes r.fields ++ r.scaling.toNodes, n.element?.isSome := by
    intro n hn
    rcases List.mem_append.1 hn with hn | hn
    · exact isSome_of_mem_fieldsNodes hn
    · exact isSome_of_mem_toNodes hn
  unfold extensionNodes
  split
  next h =>
    rw [h] at helements
    rw [← helements]
    rfl
  next h =>
    have hne : r.extensionElements ≠ [] := by
      rw [← helements]
      cases hn : fieldsNodes r.fields ++ r.scaling.toNodes with
      | nil => exact absurd hn h
      | cons n ns =>
          obtain ⟨e, he⟩ := Option.isSome_iff_exists.1 (hsome n (hn ▸ List.mem_cons_self))
          rw [Node.elements, he]
          exact List.cons_ne_nil _ _
    rw [if_neg (by simpa using hne), Node.elements, Node.element?_branch hsome, helements]
    rfl

theorem isSome_of_mem_extensionNodes {n : Node} (hn : n ∈ r.extensionNodes) :
    n.element?.isSome := by
  unfold extensionNodes at hn
  split at hn
  · cases hn
  · rw [List.mem_singleton.1 hn]
    rfl

/-- What holds of leaves, subsets and the extension holds of all that is written of a request. -/
theorem forall_mem_nodes {p : Node → Prop}
    (hleaf : ∀ tag ∈ ["wcs:CoverageId", "wcs:format", "wcs:mediaType"], ∀ s, p (.leaf tag s))
    (hsubset : ∀ s : Subset, p s.toNode) (hextension : ∀ n ∈ r.extensionNodes, p n) :
    ∀ n ∈ Node.leaf "wcs:CoverageId" r.coverageId :: r.subsets.values.map Subset.toNode ++
      r.format.toList.map (.leaf "wcs:format") ++
        r.mediaType.toList.map (.leaf "wcs:mediaType") ++ r.extensionNodes, p n := by
  intro n hn
  simp only [List.cons_append, List.mem_cons, List.mem_append, List.mem_map] at hn
  rcases hn with rfl | ((⟨s, -, rfl⟩ | ⟨f, -, rfl⟩) | ⟨m, -, rfl⟩) | hn
  · exact hleaf _ (by decide) _
  · exact hsubset s
  · exact hleaf _ (by decide) _
  · exact hleaf _ (by decide) _
  · exact hextension n hn

theorem element?_toNode : r.toNode.element? = some r.element := by
  have hsubset (s : Subset) : s.toNode.element?.isSome := by
    rw [s.element?_toNode]
    rfl
  have hsome := r.forall_mem_nodes (p := fun n => n.element?.isSome) (fun _ _ _ => rfl) hsubset
    fun _ => r.isSome_of_mem_extensionNodes
  have hattributes : (withoutNamespaces rootAttributes).map (fun a =>
      (String.ofList (localName a.1.toList), a.2)) = [("service", "WCS"), ("version", "2.0.1")] := by
    decide
  rw [toNode, Node.element?_branch hsome, hattributes, Node.elements_append, Node.elements_append,
    Node.elements_append, elements_extensionNodes, Node.elements,
    Node.elements_map fun s _ => Subset.element?_toNode s,
    Node.elements_map fun f _ => Node.element?_leaf "wcs:format" f,
    Node.elements_map fun m _ => Node.element?_leaf "wcs:mediaType" m]
  rfl

theorem wellNamed_fieldsNodes (names : List String) : ∀ n ∈ fieldsNodes names, n.WellNamed := by
  cases names with
  | nil => simp [fieldsNodes]
  | cons name names =>
      intro n hn
      rw [List.mem_singleton.1 hn]
      refine ⟨by decide, by decide, Node.allWellNamed_iff.2 fun m hm => ?_⟩
      obtain ⟨field, -, rfl⟩ := List.mem_map.1 hm
      exact ⟨by decide, by decide, Node.wellNamed_leaf (by decide) _, trivial⟩

theorem wellNamed_extensionNodes : ∀ n ∈ r.extensionNodes, n.WellNamed := by
  intro n hn
  unfold extensionNodes at hn
  split at hn
  · cases hn
  · rw [List.mem_singleton.1 hn]
    refine ⟨by decide, by decide, Node.allWellNamed_iff.2 fun m hm => ?_⟩
    rcases List.mem_append.1 hm with hm | hm
    · exact wellNamed_fieldsNodes _ m hm
    · exact r.scaling.wellNamed_toNodes m hm

theorem wellNamed_toNode : r.toNode.WellNamed := by
  have htags : ∀ tag ∈ ["wcs:CoverageId", "wcs:format", "wcs:mediaType"], IsName tag := by decide
  refine ⟨by decide, by decide, Node.allWellNamed_iff.2 ?_⟩
  exact r.forall_mem_nodes (fun tag htag => Node.wellNamed_leaf (htags tag htag))
    Subset.wellNamed_toNode r.wellNamed_extensionNodes

theorem parse_document : Element.parse r.document = .ok r.element :=
  Markup.parse_document r.wellNamed_toNode r.element?_toNode

end Written

section Lookups

variable (r : Request)

/-- The names of the elements that hold no field and no scaling. -/
def outerNames : List String :=
  ["CoverageId", "DimensionTrim", "DimensionSlice", "Dimension", "TrimLow", "TrimHigh",
    "SlicePoint", "format", "mediaType", "Extension"]

/-- Elements of the other names stand in the extension. -/
theorem descendants_element {name : String} (h : name ∉ outerNames) :
    r.element.descendants name = Element.descendantsAll name r.extensionElements := by
  simp only [outerNames, List.mem_cons, List.not_mem_nil, or_false, not_or] at h
  obtain ⟨hid, htrim, hslice, hdimension, hlow, hhigh, hpoint, hformat, hmedia, hextension⟩ := h
  have hsubsets : Element.descendantsAll name (r.subsets.values.map Subset.element) = [] := by
    apply Element.descendantsAll_eq_nil
    intro e he
    obtain ⟨s, -, rfl⟩ := List.mem_map.1 he
    refine ⟨?_, s.descendants_element (by simp [hdimension, hlow, hhigh, hpoint])⟩
    rcases s.name_element with hs | hs <;> rw [hs]
    · exact Ne.symm htrim
    · exact Ne.symm hslice
  have hformats : Element.descendantsAll name (r.format.toList.map (.leaf "format")) = [] :=
    Element.descendantsAll_leaves (Ne.symm hformat) _
  have hmedias : Element.descendantsAll name (r.mediaType.toList.map (.leaf "mediaType")) = [] :=
    Element.descendantsAll_leaves (Ne.symm hmedia) _
  rw [Element.descendants_eq, element, List.cons_append, List.cons_append, List.cons_append,
    Element.descendantsAll_cons, Element.descendantsAll_append, Element.descendantsAll_append,
    Element.descendantsAll_append, hsubsets, hformats, hmedias, Element.name_leaf,
    if_neg (Ne.symm hid)]
  split
  next hempty => simp [List.isEmpty_iff.1 hempty]
  next =>
    simp [Element.descendantsAll_cons, Element.descendants_eq, Ne.symm hextension]

theorem descendantsAll_fieldsElements {names : List String} {name : String}
    (h : name ∉ ["RangeSubset", "RangeItem", "RangeComponent"]) :
    Element.descendantsAll name (fieldsElements names) = [] := by
  simp only [List.mem_cons, List.not_mem_nil, or_false, not_or] at h
  obtain ⟨hsubset, hitem, hcomponent⟩ := h
  unfold fieldsElements
  split
  · rfl
  · apply Element.descendantsAll_eq_nil
    intro e he
    rw [List.mem_singleton.1 he]
    refine ⟨Ne.symm hsubset, Element.descendantsAll_eq_nil fun d hd => ?_⟩
    obtain ⟨field, -, rfl⟩ := List.mem_map.1 hd
    refine ⟨Ne.symm hitem, Element.descendantsAll_eq_nil fun c hc => ?_⟩
    rw [List.mem_singleton.1 hc]
    exact ⟨Ne.symm hcomponent, rfl⟩

theorem descendantsAll_component (names : List String) :
    Element.descendantsAll "RangeComponent" (fieldsElements names) =
      names.map (.leaf "RangeComponent") := by
  have hitems (l : List String) : Element.descendantsAll "RangeComponent"
      (l.map fun name => (⟨"RangeItem", [], [.leaf "RangeComponent" name], ""⟩ : Element)) =
        l.map (.leaf "RangeComponent") := by
    induction l with
    | nil => rfl
    | cons name l ih =>
        rw [List.map_cons, Element.descendantsAll_cons, ih]
        rfl
  unfold fieldsElements
  split
  next h =>
    rw [h]
    rfl
  next =>
    have hname : "RangeSubset" ≠ "RangeComponent" := by decide
    rw [Element.descendantsAll_cons, if_neg hname, Element.descendants_eq, hitems,
      Element.descendantsAll_nil, List.append_nil]
    rfl

theorem descendants_scaling {name : String} (h : name ∈ Scaling.soughtNames) :
    r.element.descendants name = r.scaling.elementsNamed name := by
  have houter : ∀ n ∈ Scaling.soughtNames, n ∉ outerNames := by decide
  have hfields : ∀ n ∈ Scaling.soughtNames,
      n ∉ ["RangeSubset", "RangeItem", "RangeComponent"] := by decide
  have hinner : ∀ n ∈ Scaling.soughtNames, n ∉ ScaleMode.innerNames := by decide
  have hinterpolation : ∀ n ∈ Scaling.soughtNames, n ≠ "Interpolation" := by decide
  rw [r.descendants_element (houter name h), extensionElements, Element.descendantsAll_append,
    descendantsAll_fieldsElements (hfields name h), List.nil_append,
    Scaling.descendantsAll_elements _ (hinner name h) (hinterpolation name h)]

theorem descendants_component :
    r.element.descendants "RangeComponent" = r.fields.map (.leaf "RangeComponent") := by
  have hscaling : r.scaling.elementsNamed "RangeComponent" = [] :=
    Scaling.elementsNamed_of_not_mem (by decide)
  rw [r.descendants_element (by decide), extensionElements, Element.descendantsAll_append,
    descendantsAll_component, Scaling.descendantsAll_elements _ (by decide) (by decide), hscaling,
    List.append_nil]

theorem descendants_eq_nil {name : String} (houter : name ∉ outerNames)
    (hfields : name ∉ ["RangeSubset", "RangeItem", "RangeComponent"])
    (hinner : name ∉ ScaleMode.innerNames) (hscaling : name ∉ Scaling.soughtNames)
    (hinterpolation : name ≠ "Interpolation") : r.element.descendants name = [] := by
  rw [r.descendants_element houter, extensionElements, Element.descendantsAll_append,
    descendantsAll_fieldsElements hfields,
    Scaling.descendantsAll_elements _ hinner hinterpolation]
  simp only [Scaling.soughtNames, Scaling.modeElements, List.cons_append, List.nil_append,
    List.mem_cons, List.not_mem_nil, or_false, not_or] at hscaling
  obtain ⟨huniform, hbyAxis, htoSize, -, -, hglobal, hcrs⟩ := hscaling
  rw [Scaling.elementsNamed_of_not_mem (by simp [huniform, hbyAxis, htoSize]), if_neg hglobal,
    if_neg hcrs]
  rfl

theorem checkRoot_element : checkRoot r.element = .ok () := by
  have hcrs : r.element.descendants "subsettingCrs" = [] :=
    r.descendants_eq_nil (by decide) (by decide) (by decide) (by decide) (by decide)
  have hname : r.element.name = "GetCoverage" := rfl
  rw [checkRoot, if_neg (not_not.2 hname), if_neg (not_not.2 hcrs)]

/-- No subset stands in the way of a look-up. -/
theorem find?_subsets {name : String} (h : Text.startsWith "Dimension" name = false)
    (l : List Subset) : (l.map Subset.element).find? (fun e => e.name == name) = none := by
  rw [List.find?_eq_none]
  intro e he
  obtain ⟨s, -, rfl⟩ := List.mem_map.1 he
  intro hname
  have := s.startsWith_name_element
  rw [beq_iff_eq.1 hname, h] at this
  cases this

theorem childText?_coverage :
    r.element.childText? "CoverageId" = some (Text.trim r.coverageId) := by
  simp [element, Element.childText?, Element.child?]

theorem childText?_format : r.element.childText? "format" = r.format.map Text.trim := by
  have hname : Text.startsWith "Dimension" "format" = false := by decide
  have hsubsets := find?_subsets hname r.subsets.values
  rw [Element.childText?, Element.child?, element]
  simp only [List.cons_append, List.find?_cons, List.find?_append, hsubsets]
  cases r.format <;> cases r.mediaType <;> cases r.extensionElements <;> simp

theorem childText?_mediaType : r.element.childText? "mediaType" = r.mediaType.map Text.trim := by
  have hname : Text.startsWith "Dimension" "mediaType" = false := by decide
  have hsubsets := find?_subsets hname r.subsets.values
  rw [Element.childText?, Element.child?, element]
  simp only [List.cons_append, List.find?_cons, List.find?_append, hsubsets]
  cases r.format <;> cases r.mediaType <;> cases r.extensionElements <;> simp

theorem dimensionElements_element :
    dimensionElements r.element = r.subsets.values.map Subset.element := by
  have hid : Text.startsWith "Dimension" "CoverageId" = false := by decide
  have hformat : Text.startsWith "Dimension" "format" = false := by decide
  have hmedia : Text.startsWith "Dimension" "mediaType" = false := by decide
  have hextension : Text.startsWith "Dimension" "Extension" = false := by decide
  have hsubsets : (r.subsets.values.map Subset.element).filter
      (fun e => Text.startsWith "Dimension" e.name) = r.subsets.values.map Subset.element := by
    rw [List.filter_eq_self]
    intro e he
    obtain ⟨s, -, rfl⟩ := List.mem_map.1 he
    exact s.startsWith_name_element
  rw [dimensionElements, element]
  simp only [List.cons_append, List.filter_cons, List.filter_append, hsubsets]
  cases r.format <;> cases r.mediaType <;> cases r.extensionElements <;>
    simp [hid, hformat, hmedia, hextension]

end Lookups

/-- A request that a document can express: its names are there and trimmed, its media type is the one
there is, and its factors and sizes are ones that can be read. -/
structure Expressible (r : Request) : Prop where
  coverage : r.coverageId ≠ "" ∧ Text.trim r.coverageId = r.coverageId
  mediaType : ∀ m ∈ r.mediaType, m = multipart
  fields : ∀ name ∈ r.fields, name ≠ "" ∧ Text.trim name = name
  mode : ∀ m ∈ r.scaling.mode, m.Readable
  subsets : ∀ e ∈ r.subsets.entries, e.1 = e.2.dimension ∧ e.1 ≠ "" ∧ Text.trim e.1 = e.1

/-- The parts that a document may change are such that it does not: none of them is empty, and there
are no blanks around them. -/
structure Settled (r : Request) : Prop where
  outputCrs : ∀ c ∈ r.scaling.outputCrs, c ≠ "" ∧ Text.trim c = c
  interpolation : ∀ m ∈ r.scaling.interpolation, m ≠ "" ∧ Text.trim m = m
  bounds : ∀ s ∈ r.subsets.values, ∀ b ∈ s.selection.bounds, Text.trim b = b

/-- A request that a document can express and does not change. -/
structure Tidy (r : Request) : Prop extends Expressible r, Settled r where
  format : ∀ f ∈ r.format, Text.trim f = f
  inferred : ∀ s ∈ r.subsets.values, s.Inferred

theorem Settled.reread_scaling {r : Request} (h : r.Settled) : r.scaling.reread = r.scaling :=
  Scaling.reread_eq_self_iff.2 ⟨h.outputCrs, h.interpolation⟩

section Reading

variable {r : Request}

theorem elementCoverage_element (h : r.Expressible) :
    elementCoverage r.element = .ok r.coverageId := by
  rw [elementCoverage, r.childText?_coverage, h.coverage.2]
  exact if_neg h.coverage.1

theorem elementFields_element (h : r.Expressible) : elementFields r.element = .ok r.fields := by
  have hinterval : r.element.descendants "RangeInterval" = [] :=
    r.descendants_eq_nil (by decide) (by decide) (by decide) (by decide) (by decide)
  have htrim : r.fields.map (fun name => Text.trim (Element.leaf "RangeComponent" name).text) =
      r.fields := by
    rw [List.map_congr_left fun name hname => (Element.trim_text_leaf _ name).trans (h.fields name
      hname).2, List.map_id']
  have hfilter : r.fields.filter (fun name => name != "") = r.fields := by
    rw [List.filter_eq_self]
    intro name hname
    simpa using (h.fields name hname).1
  rw [elementFields, if_neg (not_not.2 hinterval), r.descendants_component, List.map_map]
  exact congrArg _ ((congrArg _ htrim).trans hfilter)

theorem mediaType_element (h : r.Expressible) :
    r.element.childText? "mediaType" = r.mediaType ∧ checkMediaType r.mediaType = .ok () := by
  rw [r.childText?_mediaType]
  cases hm : r.mediaType with
  | none => exact ⟨rfl, rfl⟩
  | some m =>
      rw [h.mediaType m hm]
      exact ⟨by decide, by decide⟩

theorem enterAll_element (h : r.Expressible) :
    enterAll Subset.ofElement ∅ (dimensionElements r.element) =
      enterAll Subset.reread ∅ r.subsets.values := by
  rw [r.dimensionElements_element, enterAll_map]
  apply enterAll_congr
  intro s hs
  obtain ⟨e, he, rfl⟩ := List.mem_map.1 hs
  obtain ⟨hkey, hne, htrim⟩ := h.subsets e he
  rw [hkey] at hne htrim
  exact Subset.ofElement_element hne htrim

/-- The document of a request is read as the request with its remaining parts trimmed. -/
theorem parseDocument_document (h : r.Expressible) :
    parseDocument r.document = enterAll Subset.reread ∅ r.subsets.values >>= fun subsets =>
      .ok { r with
        format := r.format.map Text.trim
        subsets
        scaling := r.scaling.reread } := by
  obtain ⟨hmedia, hcheck⟩ := mediaType_element h
  have hscaling : Scaling.ofElement r.element = .ok r.scaling.reread :=
    Scaling.ofElement_of_descendants h.mode fun name hname => r.descendants_scaling hname
  rw [parseDocument, r.parse_document, ok_bind, ofElement, checkRoot_element,
    elementCoverage_element h, hmedia]
  dsimp only
  rw [hcheck, enterAll_element h, elementFields_element h, hscaling, r.childText?_format]
  rfl

theorem enterAll_reread (h : r.Expressible) (hs : r.Settled)
    (hinferred : ∀ s ∈ r.subsets.values, s.Inferred) :
    enterAll Subset.reread ∅ r.subsets.values = .ok r.subsets := by
  apply enterAll_values
  intro e he
  have hmem : e.2 ∈ r.subsets.values := List.mem_map_of_mem he
  exact ⟨(h.subsets e he).1, (hinferred _ hmem).reread (hs.bounds _ hmem)⟩

/-- The document of a tidy request is read as that request. -/
theorem parseDocument_document_eq_ok (h : r.Tidy) : parseDocument r.document = .ok r := by
  have hformat : r.format.map Text.trim = r.format := by
    cases hf : r.format with
    | none => rfl
    | some f => rw [Option.map_some, h.format f hf]
  rw [parseDocument_document h.toExpressible,
    enterAll_reread h.toExpressible h.toSettled h.inferred, ok_bind, hformat,
    h.toSettled.reread_scaling]

end Reading

/-- A request with a point by value, a range that is open above, factors for single axes, and names
that need escaping. -/
def resampledRange : Request where
  coverageId := "sea <ice> & \"snow\".nc"
  format := some "image/tiff"
  mediaType := some multipart
  fields := ["ice & snow", "mask"]
  subsets := (Table.insert ∅ "time" ⟨"time", .trim "3" "*", true⟩).insert "lat"
    ⟨"lat", .slice "<45.5>", false⟩
  scaling := ⟨some (.byAxis [("lat", 0.1), ("lon", 2.5)]), some "EPSG:4326", none⟩

theorem parseDocument_document_resampledRange :
    resampledRange.Tidy ∧ parseDocument resampledRange.document = .ok resampledRange := by
  have hvalues : resampledRange.subsets.values =
      [⟨"lat", .slice "<45.5>", false⟩, ⟨"time", .trim "3" "*", true⟩] := by decide
  have htidy : resampledRange.Tidy := {
    coverage := by decide
    mediaType := by decide
    fields := by decide
    mode := by
      rintro m ⟨⟩
      exact ⟨by decide, by decide, by decide⟩
    subsets := by decide
    outputCrs := by decide
    interpolation := by decide
    bounds := by decide
    format := by decide
    inferred := by
      rw [hvalues, List.forall_mem_cons, List.forall_mem_singleton]
      have hpoint : Subset.ofQuery "lat('<45.5>')" = .ok ⟨"lat", .slice "<45.5>", false⟩ := rfl
      have hrange : Subset.trim "time" " 3" "*" = .ok ⟨"time", .trim "3" "*", true⟩ := rfl
      exact ⟨.ofQuery hpoint, .trim hrange⟩ }
  exact ⟨htidy, parseDocument_document_eq_ok htidy⟩

end Request

end CoverageAccess
