import CoverageAccess.Proofs.Markup.Lookup
import CoverageAccess.Proofs.Number.Plain
import CoverageAccess.Scaling.Markup
/-!
# Scalings written as elements

The elements of a scaling are read as its mode, and as its reference system and interpolation method
with the blanks around them removed; of these two nothing is left if they are blank. The elements may
stand anywhere below the root, so `ofElement_of_descendants` only asks that the root has no others
of their names.
-/

namespace CoverageAccess

open Markup

namespace ScaleMode

variable {α : Type}

/-- The factors that the mode holds. -/
def factors : ScaleMode → List Float
  | .uniform f => [f]
  | .byAxis fs => fs.map Prod.snd
  | .toSize _ => []

/-- The sizes that the mode holds. -/
def sizes : ScaleMode → List Nat
  | .uniform _ => []
  | .byAxis _ => []
  | .toSize ns => ns.map Prod.snd

/-- The element of an axis with its value. -/
def axisElement (name child : String) (value : α → String) (e : String × α) : Element :=
  ⟨name, [], [.leaf "axis" e.1, .leaf child (value e.2)], ""⟩

/-- The element that a mode is read as. -/
def element : ScaleMode → Element
  | .uniform f => ⟨"ScaleByFactor", [], [.leaf "scaleFactor" (Number.plain f)], ""⟩
  | .byAxis fs =>
    ⟨"ScaleAxesByFactor", [], fs.map (axisElement "ScaleAxis" "scaleFactor" Number.plain), ""⟩
  | .toSize ns =>
    ⟨"ScaleToSize", [], ns.map (axisElement "TargetAxisSize" "targetSize" Number.ofNatural), ""⟩

/-- The mode is read back: its axes are trimmed, and its values are ones that a request can hold. -/
structure Readable (m : ScaleMode) : Prop where
  axes : ∀ a ∈ m.axes, Text.trim a = a
  factors : ∀ f ∈ m.factors, f.isFinite = true ∧ 0 < f
  sizes : ∀ n ∈ m.sizes, n ≤ Number.maxSize

theorem element?_axisNode {tag child : String} {name childName : String} {value : α → String}
    (htag : String.ofList (localName tag.toList) = name)
    (hchild : String.ofList (localName child.toList) = childName) (e : String × α) :
    (Scaling.axisNode tag child value e).element? = some (axisElement name childName value e) := by
  rw [Scaling.axisNode, Node.element?_branch]
  · simp only [Node.elements, Node.element?_leaf, htag, hchild]
    rfl
  · intro n hn
    rcases List.mem_cons.1 hn with rfl | hn
    · rfl
    · rw [List.mem_singleton.1 hn]
      rfl

theorem element?_toNode (m : ScaleMode) : m.toNode.element? = some m.element := by
  cases m with
  | uniform f => rfl
  | byAxis fs => exact Node.element?_map fun e _ => element?_axisNode rfl rfl e
  | toSize ns => exact Node.element?_map fun e _ => element?_axisNode rfl rfl e

theorem wellNamed_axisNode {tag child : String} (htag : IsName tag) (hchild : IsName child)
    (value : α → String) (e : String × α) : (Scaling.axisNode tag child value e).WellNamed :=
  ⟨htag, by decide, Node.wellNamed_leaf (by decide) _, Node.wellNamed_leaf hchild _, trivial⟩

theorem wellNamed_toNode (m : ScaleMode) : m.toNode.WellNamed := by
  have hnone : AreAttributes [] := by decide
  cases m with
  | uniform f => exact ⟨by decide, hnone, Node.wellNamed_leaf (by decide) _, trivial⟩
  | byAxis fs =>
      refine ⟨by decide, hnone, Node.allWellNamed_iff.2 fun n hn => ?_⟩
      obtain ⟨e, -, rfl⟩ := List.mem_map.1 hn
      exact wellNamed_axisNode (by decide) (by decide) _ _
  | toSize ns =>
      refine ⟨by decide, hnone, Node.allWellNamed_iff.2 fun n hn => ?_⟩
      obtain ⟨e, -, rfl⟩ := List.mem_map.1 hn
      exact wellNamed_axisNode (by decide) (by decide) _ _

/-- The names of the elements in the element of a mode. -/
def innerNames : List String :=
  ["scaleFactor", "ScaleAxis", "TargetAxisSize", "axis", "targetSize"]

theorem descendants_axisElement {name child other : String} {value : α → String}
    (haxis : "axis" ≠ other) (hchild : child ≠ other) (e : String × α) :
    (axisElement name child value e).descendants other = [] := by
  rw [Element.descendants_eq]
  apply Element.descendantsAll_eq_nil
  intro d hd
  simp only [axisElement, List.mem_cons, List.not_mem_nil, or_false] at hd
  rcases hd with rfl | rfl
  · exact ⟨haxis, rfl⟩
  · exact ⟨hchild, rfl⟩

theorem descendants_element (m : ScaleMode) {name : String} (h : name ∉ innerNames) :
    m.element.descendants name = [] := by
  simp only [innerNames, List.mem_cons, List.not_mem_nil, or_false, not_or] at h
  obtain ⟨hfactor, hscaled, htarget, haxis, hsize⟩ := h
  rw [Element.descendants_eq]
  apply Element.descendantsAll_eq_nil
  intro d hd
  cases m with
  | uniform f =>
      rw [List.mem_singleton.1 hd]
      exact ⟨Ne.symm hfactor, rfl⟩
  | byAxis fs =>
      obtain ⟨e, -, rfl⟩ := List.mem_map.1 hd
      exact ⟨Ne.symm hscaled, descendants_axisElement (Ne.symm haxis) (Ne.symm hfactor) e⟩
  | toSize ns =>
      obtain ⟨e, -, rfl⟩ := List.mem_map.1 hd
      exact ⟨Ne.symm htarget, descendants_axisElement (Ne.symm haxis) (Ne.symm hsize) e⟩

theorem axisEntry_axisElement {name child : String} {value : α → String}
    {read : String → Except Scaling.Refusal α} {e : String × α} (hchild : child ≠ "axis")
    (haxis : Text.trim e.1 = e.1) (hread : read (Text.trim (value e.2)) = .ok e.2) :
    Scaling.axisEntry child read (axisElement name child value e) = .ok e := by
  have hfirst : (axisElement name child value e).childText? "axis" = some e.1 := by
    simp [axisElement, Element.childText?, Element.child?, haxis]
  have hsecond : (axisElement name child value e).childText? child =
      some (Text.trim (value e.2)) := by
    simp [axisElement, Element.childText?, Element.child?, Ne.symm hchild]
  rw [Scaling.axisEntry, Scaling.requiredText, hfirst, Scaling.requiredText, hsecond]
  simp only [ok_bind, hread]
  rfl

theorem Readable.factor_plain {m : ScaleMode} (h : m.Readable) {f : Float} (hf : f ∈ m.factors)
    (locator : String) : Scaling.factor locator (Text.trim (Number.plain f)) = .ok f := by
  obtain ⟨hfinite, hpos⟩ := h.factors f hf
  rw [Scaling.factor, Number.trim_plain, Number.trim_plain, Number.real?_plain hfinite hpos]
  exact if_pos (Bool.and_eq_true_iff.2 ⟨hfinite, decide_eq_true hpos⟩)

theorem size_ofNatural {locator : String} {n : Nat} (h : n ≤ Number.maxSize) :
    Scaling.size locator (Number.ofNatural n) = .ok n := by
  rw [Scaling.size, Number.trim_ofNatural, Number.ofNatural, String.toList_ofList,
    Number.unsigned?_digits h]

end ScaleMode

namespace Scaling

/-- The elements that a scaling is read as. -/
def elements (s : Scaling) : List Element :=
  s.mode.toList.map ScaleMode.element ++
    s.interpolation.toList.map (fun m =>
      ⟨"Interpolation", [], [.leaf "globalInterpolation" m], ""⟩) ++
    s.outputCrs.toList.map (Element.leaf "outputCrs")

theorem elements_toNodes (s : Scaling) : Node.elements s.toNodes = s.elements := by
  rw [toNodes, Node.elements_append, Node.elements_append, elements,
    Node.elements_map fun m _ => m.element?_toNode,
    Node.elements_map fun c _ => Node.element?_leaf "crs:outputCrs" c]
  congr 2
  exact Node.elements_map fun m _ => rfl

theorem wellNamed_toNodes (s : Scaling) : ∀ n ∈ s.toNodes, n.WellNamed := by
  intro n hn
  simp only [toNodes, List.mem_append, List.mem_map, Option.mem_toList] at hn
  rcases hn with (⟨m, -, rfl⟩ | ⟨m, -, rfl⟩) | ⟨c, -, rfl⟩
  · exact m.wellNamed_toNode
  · exact ⟨by decide, by decide, Node.wellNamed_leaf (by decide) _, trivial⟩
  · exact Node.wellNamed_leaf (by decide) _

/-- The reader looks for elements of these names below the root. -/
def soughtNames : List String :=
  modeElements ++ ["InterpolationPerAxis", "globalInterpolation", "outputCrs"]

/-- The elements of that name among those of a scaling. -/
def elementsNamed (s : Scaling) (name : String) : List Element :=
  s.mode.toList.filterMap (fun m => if m.element.name = name then some m.element else .none) ++
    (if name = "globalInterpolation" then
      s.interpolation.toList.map (Element.leaf "globalInterpolation") else []) ++
    if name = "outputCrs" then s.outputCrs.toList.map (Element.leaf "outputCrs") else []

theorem descendantsAll_elements (s : Scaling) {name : String} (hinner : name ∉ ScaleMode.innerNames)
    (hi : name ≠ "Interpolation") :
    Element.descendantsAll name s.elements = s.elementsNamed name := by
  rw [elements, Element.descendantsAll_append, Element.descendantsAll_append, elementsNamed]
  congr 1
  · congr 1
    · cases s.mode with
      | none => rfl
      | some m =>
          have hd := m.descendants_element hinner
          by_cases hname : m.element.name = name <;>
            simp [Element.descendantsAll_cons, hd, hname]
    · cases s.interpolation with
      | none => split <;> rfl
      | some m =>
          by_cases hname : name = "globalInterpolation"
          · simp [Element.descendantsAll_cons, Element.descendants_eq, hname]
          · simp [Element.descendantsAll_cons, Element.descendants_eq, hname, Ne.symm hname,
              Ne.symm hi]
  · cases s.outputCrs with
    | none => split <;> rfl
    | some c =>
        by_cases hname : name = "outputCrs"
        · simp [Element.descendantsAll_cons, hname]
        · simp [Element.descendantsAll_cons, hname, Ne.symm hname]

/-- Elements that hold no mode are those of the other two parts. -/
theorem elementsNamed_of_not_mem {s : Scaling} {name : String}
    (h : name ∉ ["ScaleByFactor", "ScaleAxesByFactor", "ScaleToSize"]) :
    s.elementsNamed name =
      (if name = "globalInterpolation" then
        s.interpolation.toList.map (Element.leaf "globalInterpolation") else []) ++
      if name = "outputCrs" then s.outputCrs.toList.map (Element.leaf "outputCrs") else [] := by
  simp only [List.mem_cons, List.not_mem_nil, or_false, not_or] at h
  obtain ⟨huniform, hbyAxis, htoSize⟩ := h
  obtain ⟨mode, crs, interpolation⟩ := s
  cases mode with
  | none => rfl
  | some m =>
      cases m with
      | uniform f => simp [elementsNamed, ScaleMode.element, Ne.symm huniform]
      | byAxis fs => simp [elementsNamed, ScaleMode.element, Ne.symm hbyAxis]
      | toSize ns => simp [elementsNamed, ScaleMode.element, Ne.symm htoSize]

/-- What is left of a text that is looked for in a document. -/
def kept (s : String) : Option String :=
  (some (Text.trim s)).filter fun t => t != ""

/-- What is read of the elements of a scaling. -/
def reread (s : Scaling) : Scaling :=
  ⟨s.mode, s.outputCrs.bind kept, s.interpolation.bind kept⟩

theorem kept_eq_some_iff {s t : String} : kept s = some t ↔ Text.trim s = t ∧ t ≠ "" := by
  rw [kept, Option.filter_some]
  split
  next h =>
    have hne : Text.trim s ≠ "" := by simpa using h
    constructor
    · rintro ⟨⟩
      exact ⟨rfl, hne⟩
    · rintro ⟨rfl, -⟩
      rfl
  next h =>
    have hnil : Text.trim s = "" := by simpa using h
    constructor
    · rintro ⟨⟩
    · rintro ⟨rfl, hne⟩
      exact absurd hnil hne

theorem bind_kept_eq_self_iff {o : Option String} :
    o.bind kept = o ↔ ∀ s ∈ o, s ≠ "" ∧ Text.trim s = s := by
  cases o with
  | none => simp
  | some s => simpa using kept_eq_some_iff.trans and_comm

/-- A scaling is read as itself exactly if its reference system and its interpolation method are
trimmed and not empty. -/
theorem reread_eq_self_iff {s : Scaling} :
    s.reread = s ↔ (∀ c ∈ s.outputCrs, c ≠ "" ∧ Text.trim c = c) ∧
      ∀ m ∈ s.interpolation, m ≠ "" ∧ Text.trim m = m := by
  rw [← bind_kept_eq_self_iff, ← bind_kept_eq_self_iff]
  constructor
  · intro h
    exact ⟨congrArg outputCrs h, congrArg interpolation h⟩
  · rintro ⟨hcrs, hinterpolation⟩
    rw [reread, hcrs, hinterpolation]

theorem firstText?_eq {root : Element} {name : String} {o : Option String}
    (h : root.descendants name = o.toList.map (Element.leaf name)) :
    firstText? root name = o.bind kept := by
  rw [firstText?, h]
  cases o with
  | none => rfl
  | some s =>
      change (some (Text.trim (Element.leaf name s).text)).filter _ = _
      rw [Element.trim_text_leaf]
      rfl

theorem childText?_leaf (outer name s text : String) :
    (⟨outer, [], [.leaf name s], text⟩ : Element).childText? name = some (Text.trim s) := by
  simp [Element.childText?, Element.child?]

/-- An element with an entry for each of some axes is read as the axes with their values. -/
theorem mapM_axisEntry_axes {outer name child text : String} {value : α → String}
    {read : String → Except Refusal α} {l : List (String × α)} (hchild : child ≠ "axis")
    (haxes : ∀ a ∈ l.map Prod.fst, Text.trim a = a)
    (hread : ∀ e ∈ l, read (Text.trim (value e.2)) = .ok e.2) :
    ((⟨outer, [], l.map (ScaleMode.axisElement name child value), text⟩ : Element).childrenNamed
      name).mapM (axisEntry child read) = .ok l := by
  have hall : ∀ e ∈ l.map (ScaleMode.axisElement name child value), (e.name == name) = true := by
    intro e he
    obtain ⟨a, -, rfl⟩ := List.mem_map.1 he
    exact beq_self_eq_true name
  rw [Element.childrenNamed, List.filter_eq_self.2 hall]
  exact mapM_map_eq_ok fun e he =>
    ScaleMode.axisEntry_axisElement hchild (haxes e.1 (List.mem_map_of_mem he)) (hread e he)

theorem elementMode_eq {s : Scaling} {root : Element} (hmode : ∀ m ∈ s.mode, m.Readable)
    (h : ∀ name ∈ modeElements, root.descendants name = s.elementsNamed name) :
    elementMode root = .ok s.mode := by
  have huniform := h "ScaleByFactor" (by decide)
  have hbyAxis := h "ScaleAxesByFactor" (by decide)
  have htoSize := h "ScaleToSize" (by decide)
  obtain ⟨mode, crs, interpolation⟩ := s
  cases mode with
  | none =>
      have hu : root.descendants "ScaleByFactor" = [] := huniform
      have ha : root.descendants "ScaleAxesByFactor" = [] := hbyAxis
      have hs : root.descendants "ScaleToSize" = [] := htoSize
      rw [elementMode, hu, ha, hs]
  | some m =>
      have hm := hmode m rfl
      cases m with
      | uniform f =>
          have hu : root.descendants "ScaleByFactor" = [(ScaleMode.uniform f).element] := huniform
          have hf := hm.factor_plain (List.mem_singleton_self f) "scaleFactor"
          rw [elementMode, hu]
          simp only [ScaleMode.element, requiredText, childText?_leaf, ok_bind, hf]
          rfl
      | byAxis fs =>
          have hu : root.descendants "ScaleByFactor" = [] := huniform
          have ha : root.descendants "ScaleAxesByFactor" = [(ScaleMode.byAxis fs).element] :=
            hbyAxis
          rw [elementMode, hu, ha]
          dsimp only [ScaleMode.element]
          rw [mapM_axisEntry_axes (by decide) hm.axes fun e he =>
            hm.factor_plain (List.mem_map_of_mem he) _]
          rfl
      | toSize ns =>
          have hu : root.descendants "ScaleByFactor" = [] := huniform
          have ha : root.descendants "ScaleAxesByFactor" = [] := hbyAxis
          have hs : root.descendants "ScaleToSize" = [(ScaleMode.toSize ns).element] := htoSize
          have hsizes : ∀ e ∈ ns, size "targetSize" (Text.trim (Number.ofNatural e.2)) = .ok e.2 := by
            intro e he
            rw [Number.trim_ofNatural]
            exact ScaleMode.size_ofNatural (hm.sizes e.2 (List.mem_map_of_mem he))
          rw [elementMode, hu, ha, hs]
          dsimp only [ScaleMode.element]
          rw [mapM_axisEntry_axes (by decide) hm.axes hsizes]
          rfl

/-- What the elements of a document have to be for its scaling to be `s`. -/
structure IsOfElement (root : Element) (s : Scaling) : Prop where
  single : (modeElements.flatMap fun n => root.descendants n).length ≤ 1
  noExtent : root.descendants "ScaleToExtent" = []
  noPerAxis : root.descendants "InterpolationPerAxis" = []
  mode : elementMode root = .ok s.mode
  outputCrs : s.outputCrs = firstText? root "outputCrs"
  interpolation : s.interpolation = firstText? root "globalInterpolation"

theorem ofElement_eq_ok_iff {root : Element} {s : Scaling} :
    ofElement root = .ok s ↔ IsOfElement root s := by
  constructor
  · intro h
    unfold ofElement at h
    split at h
    next => cases h
    next hsingle =>
      split at h
      next => cases h
      next hextent =>
        split at h
        next => cases h
        next hperAxis =>
          obtain ⟨mode, hmode, h⟩ := bind_eq_ok_iff.1 h
          cases pure_eq_ok_iff.1 h
          exact ⟨Nat.le_of_not_lt hsingle, not_not.1 hextent, not_not.1 hperAxis, hmode, rfl, rfl⟩
  · rintro ⟨hsingle, hextent, hperAxis, hmode, hcrs, hmethod⟩
    obtain ⟨mode, outputCrs, interpolation⟩ := s
    dsimp only at *
    subst hcrs hmethod
    rw [ofElement, if_neg (Nat.not_lt.2 hsingle), if_neg (not_not.2 hextent),
      if_neg (not_not.2 hperAxis), hmode]
    rfl

/-- There is at most one element with a mode, whatever its name. -/
theorem IsOfElement.length_le_one {root : Element} {s : Scaling} (h : IsOfElement root s)
    {name : String} (hname : name ∈ modeElements) : (root.descendants name).length ≤ 1 := by
  have hsublist : (root.descendants name).Sublist
      (modeElements.flatMap fun n => root.descendants n) :=
    List.sublist_flatten_of_mem (List.mem_map_of_mem hname)
  exact hsublist.length_le.trans h.single

/-- A root whose elements of the sought names are those of a scaling is read as the scaling. -/
theorem ofElement_of_descendants {s : Scaling} {root : Element} (hmode : ∀ m ∈ s.mode, m.Readable)
    (h : ∀ name ∈ soughtNames, root.descendants name = s.elementsNamed name) :
    ofElement root = .ok s.reread := by
  have hmodes : ∀ name ∈ modeElements, root.descendants name = s.elementsNamed name :=
    fun name hname => h name (List.mem_append_left _ hname)
  have hcount : ¬1 < (modeElements.flatMap fun n => root.descendants n).length := by
    rw [List.flatMap_congr hmodes]
    obtain ⟨mode, crs, interpolation⟩ := s
    cases mode with
    | none => exact of_decide_eq_false rfl
    | some m => cases m <;> exact of_decide_eq_false rfl
  have hother (name : String) (hs : name ∈ soughtNames)
      (hm : name ∉ ["ScaleByFactor", "ScaleAxesByFactor", "ScaleToSize"]) :
      root.descendants name = _ :=
    (h name hs).trans (elementsNamed_of_not_mem hm)
  have hextent : root.descendants "ScaleToExtent" = [] := hother _ (by decide) (by decide)
  have hperAxis : root.descendants "InterpolationPerAxis" = [] :=
    hother _ (by decide) (by decide)
  have hcrs : root.descendants "outputCrs" = s.outputCrs.toList.map (Element.leaf "outputCrs") :=
    hother _ (by decide) (by decide)
  have hinterpolation : root.descendants "globalInterpolation" =
      s.interpolation.toList.map (Element.leaf "globalInterpolation") :=
    (hother _ (by decide) (by decide)).trans (List.append_nil _)
  rw [ofElement, if_neg hcount, if_neg (not_not.2 hextent), if_neg (not_not.2 hperAxis),
    elementMode_eq hmode hmodes, ok_bind, firstText?_eq hcrs, firstText?_eq hinterpolation]
  rfl

end Scaling

end CoverageAccess
