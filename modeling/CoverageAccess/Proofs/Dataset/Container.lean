import CoverageAccess.Proofs.Dataset.Grid
/-!
# Attributes in containers

The members of a container count as attributes of its owner, also those of a container in a container.
All of them share one table with the owner's own attributes, and the last declaration of a name in
document order counts, however deep it stands (`LastAt`). A table that is flattened by one level would
have the owner's own attributes first, then the members of its containers, and nothing from deeper ones
(`IsFlattened`). The table of an element is so exactly if no container that follows an own attribute
gives the name another value (`IsShadowed`) and no value comes from a container of a container
(`IsBuried`); see `attributes_isFlattened_iff`.
-/

namespace CoverageAccess

namespace Dataset

open Markup

/-- The element is an attribute of that name, and the value is its first one. A container is none. -/
structure IsAttribute (e : Element) (name value : String) : Prop where
  tag : e.name = "Attribute"
  named : e.attribute? "name" = some name
  plain : e.attribute? "type" ≠ some "Container"
  valued : e.childText? "Value" = some value

/-- The element is a container of attributes. Like an attribute, it has a name. -/
structure IsContainer (e : Element) : Prop where
  tag : e.name = "Attribute"
  named : (e.attribute? "name").isSome
  container : e.attribute? "type" = some "Container"

instance (e : Element) (name value : String) : Decidable (IsAttribute e name value) :=
  decidable_of_iff (e.name = "Attribute" ∧ e.attribute? "name" = some name ∧
      e.attribute? "type" ≠ some "Container" ∧ e.childText? "Value" = some value)
    ⟨fun ⟨h, i, j, k⟩ => ⟨h, i, j, k⟩, fun ⟨h, i, j, k⟩ => ⟨h, i, j, k⟩⟩

instance (e : Element) : Decidable (IsContainer e) :=
  decidable_of_iff (e.name = "Attribute" ∧ (e.attribute? "name").isSome ∧
      e.attribute? "type" = some "Container")
    ⟨fun ⟨h, i, j⟩ => ⟨h, i, j⟩, fun ⟨h, i, j⟩ => ⟨h, i, j⟩⟩

/-- Among the elements the attribute is declared with that value, inside of that many containers. -/
inductive DeclaresAt (name : String) : Nat → List Element → String → Prop
  | own {es : List Element} {e : Element} {value : String} (he : e ∈ es)
      (h : IsAttribute e name value) : DeclaresAt name 0 es value
  | member {k : Nat} {es : List Element} {c : Element} {value : String} (hc : c ∈ es)
      (hcontainer : IsContainer c) (h : DeclaresAt name k c.children value) :
      DeclaresAt name (k + 1) es value

/-- The elements do not declare the attribute, at any depth. -/
def IsSilent (name : String) (es : List Element) : Prop :=
  ∀ k value, ¬DeclaresAt name k es value

/-- The last declaration of the attribute among the elements, in document order, has that value and
stands inside of that many containers. -/
inductive LastAt (name : String) : Nat → List Element → String → Prop
  | own {e : Element} {es : List Element} {value : String} (h : IsAttribute e name value)
      (hsilent : IsSilent name es) : LastAt name 0 (e :: es) value
  | member {k : Nat} {c : Element} {es : List Element} {value : String} (hcontainer : IsContainer c)
      (h : LastAt name k c.children value) (hsilent : IsSilent name es) :
      LastAt name (k + 1) (c :: es) value
  | later {k : Nat} {e : Element} {es : List Element} {value : String}
      (h : LastAt name k es value) : LastAt name k (e :: es) value

/-- The answer when an owner's own attributes come first, the members of its containers next, and
deeper ones never. -/
inductive IsFlattened (name : String) (es : List Element) : Option String → Prop
  | own {value : String} (h : DeclaresAt name 0 es value) : IsFlattened name es (some value)
  | member {value : String} (hown : ∀ own, ¬DeclaresAt name 0 es own)
      (h : DeclaresAt name 1 es value) : IsFlattened name es (some value)
  | absent (hown : ∀ own, ¬DeclaresAt name 0 es own)
      (hmember : ∀ value, ¬DeclaresAt name 1 es value) : IsFlattened name es none

/-- There is an own attribute, but the last declaration stands in a container and has a value that no
own attribute has. -/
def IsShadowed (name : String) (es : List Element) : Prop :=
  ∃ k value, LastAt name (k + 1) es value ∧ (∃ own, DeclaresAt name 0 es own) ∧
    ¬DeclaresAt name 0 es value

/-- There is no own attribute, and the last declaration stands in a container of a container and has a
value that no member of an outer container has. -/
def IsBuried (name : String) (es : List Element) : Prop :=
  ∃ k value, LastAt name (k + 2) es value ∧ (∀ own, ¬DeclaresAt name 0 es own) ∧
    ¬DeclaresAt name 1 es value

/-- Where there is an own attribute, the answer is the value of one. -/
def KeepsOwn (name : String) (es : List Element) (answer : Option String) : Prop :=
  ∀ own, DeclaresAt name 0 es own → ∃ kept, answer = some kept ∧ DeclaresAt name 0 es kept

variable {name value : String} {e c : Element} {es : List Element} {k : Nat}

theorem declaresAt_zero_iff :
    DeclaresAt name 0 es value ↔ ∃ e ∈ es, IsAttribute e name value := by
  constructor
  · intro h
    cases h with
    | own he h => exact ⟨_, he, h⟩
  · rintro ⟨e, he, h⟩
    exact .own he h

theorem declaresAt_succ_iff : DeclaresAt name (k + 1) es value ↔
    ∃ c ∈ es, IsContainer c ∧ DeclaresAt name k c.children value := by
  constructor
  · intro h
    cases h with
    | member hc hcontainer h => exact ⟨_, hc, hcontainer, h⟩
  · rintro ⟨c, hc, hcontainer, h⟩
    exact .member hc hcontainer h

instance decidableDeclaresAt (name : String) :
    (k : Nat) → (es : List Element) → (value : String) → Decidable (DeclaresAt name k es value)
  | 0, _, _ => decidable_of_iff _ declaresAt_zero_iff.symm
  | k + 1, es, value =>
      have := fun c : Element => decidableDeclaresAt name k c.children value
      decidable_of_iff (∃ c ∈ es, IsContainer c ∧ DeclaresAt name k c.children value)
        declaresAt_succ_iff.symm

theorem isSilent_nil (name : String) : IsSilent name [] := by
  intro k value h
  cases h with
  | own he _ => cases he
  | member hc _ _ => cases hc

theorem declaredBy_of_isAttribute (h : IsAttribute e name value) :
    declaredBy e = [(name, value)] := by
  obtain ⟨tag, attributes, children, text⟩ := e
  obtain ⟨rfl, hnamed, hplain, hvalued⟩ := h
  simp [declaredBy, hnamed, hplain, hvalued]

theorem declaredBy_of_isContainer (h : IsContainer c) : declaredBy c = declaredIn c.children := by
  obtain ⟨tag, attributes, children, text⟩ := c
  obtain ⟨rfl, hnamed, hcontainer⟩ := h
  obtain ⟨name, hname⟩ := Option.isSome_iff_exists.1 hnamed
  simp [declaredBy, hname, hcontainer]

/-- A child that is neither an attribute with a value nor a container declares nothing. -/
theorem isAttribute_or_isContainer (e : Element) :
    (∃ name value, IsAttribute e name value) ∨ IsContainer e ∨ declaredBy e = [] := by
  obtain ⟨tag, attributes, children, text⟩ := e
  by_cases htag : tag = "Attribute"
  case neg => exact .inr (.inr (by simp [declaredBy, htag]))
  cases hname : Element.attribute? ⟨tag, attributes, children, text⟩ "name" with
  | none => exact .inr (.inr (by simp [declaredBy, hname]))
  | some name =>
      by_cases hcontainer :
          Element.attribute? ⟨tag, attributes, children, text⟩ "type" = some "Container"
      · exact .inr (.inl ⟨htag, by rw [hname]; rfl, hcontainer⟩)
      · cases hvalue : Element.childText? ⟨tag, attributes, children, text⟩ "Value" with
        | none => exact .inr (.inr (by simp [declaredBy, hname, hcontainer, hvalue]))
        | some value => exact .inl ⟨name, value, htag, hname, hcontainer, hvalue⟩

theorem mem_declaredIn_iff {a : String × String} :
    a ∈ declaredIn es ↔ ∃ e ∈ es, a ∈ declaredBy e := by
  induction es with
  | nil => simp [declaredIn]
  | cons e es ih => rw [declaredIn, List.mem_append, ih, List.exists_mem_cons_iff]

/-- Induction on a list of elements, with the children of its first member and with the rest. -/
theorem children_induction {motive : List Element → Prop} (nil : motive [])
    (cons : ∀ e es, motive e.children → motive es → motive (e :: es)) (es : List Element) :
    motive es := by
  match es with
  | [] => exact nil
  | ⟨tag, attributes, children, text⟩ :: es =>
      exact cons _ es (children_induction nil cons children) (children_induction nil cons es)

theorem DeclaresAt.mono {fs : List Element} (h : DeclaresAt name k es value) (hsub : es ⊆ fs) :
    DeclaresAt name k fs value := by
  cases h with
  | own he h => exact .own (hsub he) h
  | member hc hcontainer h => exact .member (hsub hc) hcontainer h

theorem DeclaresAt.mem_declaredIn (h : DeclaresAt name k es value) :
    (name, value) ∈ declaredIn es := by
  induction h with
  | own he h =>
      exact mem_declaredIn_iff.2 ⟨_, he, by rw [declaredBy_of_isAttribute h]; simp⟩
  | member hc hcontainer _ ih =>
      exact mem_declaredIn_iff.2 ⟨_, hc, by rwa [declaredBy_of_isContainer hcontainer]⟩

/-- The value of the last pair with that name. -/
def lastOf? (l : List (String × String)) (name : String) : Option String :=
  (l.reverse.find? fun a => a.1 == name).map Prod.snd

theorem lastOf?_append (l m : List (String × String)) (name : String) :
    lastOf? (l ++ m) name = (lastOf? m name).or (lastOf? l name) := by
  rw [lastOf?, List.reverse_append, List.find?_append, Option.map_or]
  rfl

theorem lastOf?_singleton_eq_some_iff {a : String × String} :
    lastOf? [a] name = some value ↔ a = (name, value) := by
  obtain ⟨other, first⟩ := a
  by_cases h : other = name <;> simp [lastOf?, h]

theorem isSilent_of_lastOf? (h : lastOf? (declaredIn es) name = none) : IsSilent name es := by
  simp only [lastOf?, Option.map_eq_none_iff, List.find?_eq_none, List.mem_reverse,
    beq_iff_eq] at h
  intro k value hdeclared
  exact h _ hdeclared.mem_declaredIn rfl

theorem LastAt.declaresAt (h : LastAt name k es value) : DeclaresAt name k es value := by
  induction h with
  | own h _ => exact .own List.mem_cons_self h
  | member hcontainer _ _ ih => exact .member List.mem_cons_self hcontainer ih
  | later _ ih => exact ih.mono (List.subset_cons_self _ _)

theorem exists_lastAt_of_lastOf? (h : lastOf? (declaredIn es) name = some value) :
    ∃ k, LastAt name k es value := by
  induction es using children_induction with
  | nil => cases h
  | cons e es hmembers hlater =>
      -- a later element has the last word, or else the first one or one of its members has it
      rw [declaredIn, lastOf?_append, Option.or_eq_some_iff] at h
      rcases h with h | ⟨hsilent, h⟩
      case inl =>
        obtain ⟨k, hk⟩ := hlater h
        exact ⟨k, .later hk⟩
      have hsilent : IsSilent name es := isSilent_of_lastOf? hsilent
      obtain ⟨own, first, hown⟩ | hcontainer | hnone := isAttribute_or_isContainer e
      · rw [declaredBy_of_isAttribute hown, lastOf?_singleton_eq_some_iff, Prod.mk.injEq] at h
        obtain ⟨rfl, rfl⟩ := h
        exact ⟨0, .own hown hsilent⟩
      · rw [declaredBy_of_isContainer hcontainer] at h
        obtain ⟨k, hk⟩ := hmembers h
        exact ⟨k + 1, .member hcontainer hk hsilent⟩
      · rw [hnone] at h
        cases h

theorem lastOf?_declaredIn_eq_none_iff : lastOf? (declaredIn es) name = none ↔ IsSilent name es := by
  refine ⟨isSilent_of_lastOf?, fun hsilent => ?_⟩
  rw [Option.eq_none_iff_forall_ne_some]
  intro value hvalue
  obtain ⟨k, hk⟩ := exists_lastAt_of_lastOf? hvalue
  exact hsilent k value hk.declaresAt

theorem LastAt.lastOf?_eq (h : LastAt name k es value) :
    lastOf? (declaredIn es) name = some value := by
  induction h with
  | own h hsilent =>
      rw [declaredIn, lastOf?_append, lastOf?_declaredIn_eq_none_iff.2 hsilent, Option.none_or,
        declaredBy_of_isAttribute h, lastOf?_singleton_eq_some_iff]
  | member hcontainer _ hsilent ih =>
      rw [declaredIn, lastOf?_append, lastOf?_declaredIn_eq_none_iff.2 hsilent, Option.none_or,
        declaredBy_of_isContainer hcontainer, ih]
  | later _ ih => rw [declaredIn, lastOf?_append, ih, Option.some_or]

/-- An attribute has the value of its last declaration, at whatever depth. -/
theorem given?_eq_some_iff : given? e name = some value ↔ ∃ k, LastAt name k e.children value := by
  constructor
  · exact exists_lastAt_of_lastOf?
  · rintro ⟨k, hk⟩
    exact hk.lastOf?_eq

theorem given?_eq_none_iff : given? e name = none ↔ IsSilent name e.children :=
  lastOf?_declaredIn_eq_none_iff

theorem getD_given?_eq_iff {otherwise : String} : (given? e name).getD otherwise = value ↔
    (∃ k, LastAt name k e.children value) ∨ IsSilent name e.children ∧ value = otherwise := by
  rw [← given?_eq_some_iff, ← given?_eq_none_iff]
  cases given? e name <;> simp [eq_comm]

theorem LastAt.own_of_not_isShadowed {own : String} (h : LastAt name k es value)
    (hown : DeclaresAt name 0 es own) (hshadowed : ¬IsShadowed name es) :
    DeclaresAt name 0 es value := by
  cases k with
  | zero => exact h.declaresAt
  | succ k =>
      by_contra hnot
      exact hshadowed ⟨k, value, h, ⟨own, hown⟩, hnot⟩

theorem LastAt.member_of_not_isBuried (h : LastAt name k es value)
    (hown : ∀ own, ¬DeclaresAt name 0 es own) (hburied : ¬IsBuried name es) :
    DeclaresAt name 1 es value := by
  match k with
  | 0 => exact absurd h.declaresAt (hown value)
  | 1 => exact h.declaresAt
  | k + 2 =>
      by_contra hnot
      exact hburied ⟨k, value, h, hown, hnot⟩

theorem keepsOwn_given?_iff :
    KeepsOwn name e.children (given? e name) ↔ ¬IsShadowed name e.children := by
  constructor
  · rintro hkeeps ⟨k, value, hlast, ⟨own, hown⟩, hnot⟩
    obtain ⟨kept, hgiven, hkept⟩ := hkeeps own hown
    rw [given?_eq_some_iff.2 ⟨_, hlast⟩, Option.some.injEq] at hgiven
    exact hnot (hgiven ▸ hkept)
  · intro hshadowed own hown
    cases hgiven : given? e name with
    | none => exact absurd hown (given?_eq_none_iff.1 hgiven 0 own)
    | some value =>
        obtain ⟨k, hk⟩ := given?_eq_some_iff.1 hgiven
        exact ⟨value, rfl, hk.own_of_not_isShadowed hown hshadowed⟩

theorem IsFlattened.keepsOwn {answer : Option String} (h : IsFlattened name es answer) :
    KeepsOwn name es answer := by
  intro own hown
  cases h with
  | own h => exact ⟨_, rfl, h⟩
  | member hnone _ => exact absurd hown (hnone own)
  | absent hnone _ => exact absurd hown (hnone own)

theorem isFlattened_given?_iff : IsFlattened name e.children (given? e name) ↔
    ¬IsShadowed name e.children ∧ ¬IsBuried name e.children := by
  constructor
  · intro h
    refine ⟨keepsOwn_given?_iff.1 h.keepsOwn, ?_⟩
    rintro ⟨k, value, hlast, hnone, hnot⟩
    rw [given?_eq_some_iff.2 ⟨_, hlast⟩] at h
    cases h with
    | own h => exact hnone value h
    | member _ h => exact hnot h
  · rintro ⟨hshadowed, hburied⟩
    cases hgiven : given? e name with
    | none =>
        rw [given?_eq_none_iff] at hgiven
        exact .absent (hgiven 0) (hgiven 1)
    | some value =>
        obtain ⟨k, hk⟩ := given?_eq_some_iff.1 hgiven
        by_cases hown : ∃ own, DeclaresAt name 0 e.children own
        · obtain ⟨own, hown⟩ := hown
          exact .own (hk.own_of_not_isShadowed hown hshadowed)
        · rw [not_exists] at hown
          exact .member hown (hk.member_of_not_isBuried hown hburied)

/-- An attribute has the value of its last declaration, at whatever depth. So an element's own
attributes come first exactly if no container shadows them, and its table is flattened by one level
exactly if, besides, no value is buried in a container of a container. The standard name by which a
variable is known and the units of its axis are such last declarations. -/
theorem attributes_isFlattened_iff (e : Element) :
    (∀ name,
      (∀ value, (attributesOf e).get? name = some value ↔ ∃ k, LastAt name k e.children value) ∧
      (KeepsOwn name e.children ((attributesOf e).get? name) ↔ ¬IsShadowed name e.children) ∧
      (IsFlattened name e.children ((attributesOf e).get? name) ↔
        ¬IsShadowed name e.children ∧ ¬IsBuried name e.children)) ∧
    ∀ v, variableOf? e = some v →
      (∀ standard, isAxisVariable standard v = true ↔
        (∃ dimension, dimensionsOf e = [dimension]) ∧
          ∃ k, LastAt "standard_name" k e.children standard) ∧
      ∀ (d : Dataset) (t : Template) (units : String),
        (d.axisOfVariable t v).coordinate.units = units ↔
          (∃ k, LastAt "units" k e.children units) ∨
            IsSilent "units" e.children ∧ units = t.coordinate.units := by
  constructor
  · intro name
    rw [get?_attributesOf]
    exact ⟨fun _ => given?_eq_some_iff, keepsOwn_given?_iff, isFlattened_given?_iff⟩
  · intro v hv
    obtain ⟨-, -, hdimensions, hattributes⟩ := variableOf?_eq_some_iff.1 hv
    constructor
    · intro standard
      simp only [isAxisVariable, Bool.and_eq_true, beq_iff_eq, List.length_eq_one_iff, hdimensions,
        hattributes, get?_attributesOf, given?_eq_some_iff]
    · intro d t units
      rw [axisOfVariable, hattributes, get?_attributesOf]
      exact getD_given?_eq_iff

/-- The element of a container. -/
def containerElement (name : String) (members : List Element) : Element :=
  ⟨"Attribute", [("name", name), ("type", "Container")], members, ""⟩

/-- The element of latitudes with the given attributes and containers. -/
def latitudeElement (declared : List Element) : Element :=
  let latitudes := variableElement "lat" [some "/lat"]
  { latitudes with children := latitudes.children ++ declared }

/-- Latitudes in degrees, with a container in which the radians of something else stand. -/
def shadowedLatitudes : Element :=
  latitudeElement [attributeElement "units" "degrees",
    containerElement "origin" [attributeElement "units" "radians"]]

/-- Latitudes without units, with a container of such a container. -/
def buriedLatitudes : Element :=
  latitudeElement [containerElement "history"
    [containerElement "origin" [attributeElement "units" "radians"]]]

/-- A document with the given latitudes and temperatures over them. -/
def temperatures (latitudes : Element) : Element :=
  ⟨"Dataset", [("name", "temperatures")], [latitudes, variableElement "T" [some "/lat"]], ""⟩

theorem lastAt_shadowedLatitudes : LastAt "units" 1 shadowedLatitudes.children "radians" :=
  .later (.later (.member (by decide) (.own (by decide) (isSilent_nil _)) (isSilent_nil _)))

theorem lastAt_buriedLatitudes : LastAt "units" 2 buriedLatitudes.children "radians" := by
  have horigin : LastAt "units" 1 [containerElement "origin" [attributeElement "units" "radians"]]
      "radians" :=
    .member (by decide) (.own (by decide) (isSilent_nil _)) (isSilent_nil _)
  exact .later (.member (by decide) horigin (isSilent_nil _))

theorem isShadowed_shadowedLatitudes : IsShadowed "units" shadowedLatitudes.children :=
  ⟨0, "radians", lastAt_shadowedLatitudes, ⟨"degrees", by decide⟩, by decide⟩

theorem isBuried_buriedLatitudes : IsBuried "units" buriedLatitudes.children := by
  refine ⟨0, "radians", lastAt_buriedLatitudes, ?_, by decide⟩
  have hname : ∀ e ∈ buriedLatitudes.children, e.attribute? "name" ≠ some "units" := by decide
  intro own hown
  obtain ⟨e, he, h⟩ := declaresAt_zero_iff.1 hown
  exact hname e he h.named

/-- Two axes of latitudes get the units of something else: in spite of their own units, and from a
container of a container. -/
theorem attributes_isFlattened_iff_radians :
    (∃ v, variableOf? shadowedLatitudes = some v ∧
      ¬KeepsOwn "units" shadowedLatitudes.children ((attributesOf shadowedLatitudes).get? "units") ∧
      ∀ (d : Dataset) (t : Template), (d.axisOfVariable t v).coordinate.units = "radians") ∧
    (∃ v, variableOf? buriedLatitudes = some v ∧
      ¬IsFlattened "units" buriedLatitudes.children ((attributesOf buriedLatitudes).get? "units") ∧
      ∀ (d : Dataset) (t : Template), (d.axisOfVariable t v).coordinate.units = "radians") ∧
    ∀ e ∈ [shadowedLatitudes, buriedLatitudes], ∃ c,
      latitudes.derive (temperatures e) "grids/temperatures" "http://localhost/temperatures" = .ok c ∧
        c.coordinates = [⟨"latitude", "lat", "radians", 180, some .latitude⟩] := by
  obtain ⟨hshadowed, hshadowedAxis⟩ := attributes_isFlattened_iff shadowedLatitudes
  obtain ⟨hburied, hburiedAxis⟩ := attributes_isFlattened_iff buriedLatitudes
  refine ⟨⟨_, rfl, ?_, ?_⟩, ⟨_, rfl, ?_, ?_⟩, ?_⟩
  · intro hkeeps
    exact (hshadowed "units").2.1.1 hkeeps isShadowed_shadowedLatitudes
  · intro d t
    exact ((hshadowedAxis _ rfl).2 d t "radians").2 (.inl ⟨1, lastAt_shadowedLatitudes⟩)
  · intro hflattened
    exact ((hburied "units").2.2.1 hflattened).2 isBuried_buriedLatitudes
  · intro d t
    exact ((hburiedAxis _ rfl).2 d t "radians").2 (.inl ⟨2, lastAt_buriedLatitudes⟩)
  · intro e he
    simp only [List.mem_cons, List.not_mem_nil, or_false] at he
    rcases he with rfl | rfl
    · exact ⟨_, rfl, rfl⟩
    · exact ⟨_, rfl, rfl⟩

end Dataset

end CoverageAccess
