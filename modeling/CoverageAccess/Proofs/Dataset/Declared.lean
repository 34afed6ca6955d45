import CoverageAccess.Dataset.Basic
/-!
# What a metadata document declares

A dataset keeps its attributes and the sizes of its dimensions in tables that are filled element by
element. Here the declarations are listed instead, in document order: the members of a container stand
in its place (`declaredIn`), and what counts is the last declaration of a name. A look-up in a table of
the dataset is the look-up in the list (`get?_attributesOf`, `get?_dimensions`).
-/

namespace CoverageAccess

namespace Dataset

open Markup

mutual

/-- The attributes that an element declares as a child: one if it is an attribute with a value, and
those of its members if it is a container. -/
def declaredBy : Element → List (String × String)
  | ⟨tag, attributes, children, text⟩ =>
    let e : Element := ⟨tag, attributes, children, text⟩
    if tag ≠ "Attribute" then []
    else
      match e.attribute? "name" with
      | none => []
      | some name =>
        if e.attribute? "type" = some "Container" then declaredIn children
        else ((e.childText? "Value").map fun value => (name, value)).toList

/-- The attributes that the elements of a list declare, in document order. -/
def declaredIn : List Element → List (String × String)
  | [] => []
  | e :: es => declaredBy e ++ declaredIn es

end

/-- The value that an element gives to an attribute. -/
def given? (e : Element) (name : String) : Option String :=
  ((declaredIn e.children).reverse.find? fun a => a.1 == name).map Prod.snd

/-- The size that a document gives to a dimension. -/
def sizeOf? (root : Element) (dimension : String) : Option Nat :=
  (((root.childrenNamed "Dimension").filterMap dimension?).reverse.find? fun d =>
    d.1 == dimension).map Prod.snd

/-- The element declares a variable of that name. -/
def DeclaresVariable (e : Element) (name : String) : Prop :=
  e.name ∈ atomicTypes ∧ e.attribute? "name" = some name

/-- Enters every pair of a list into a table. -/
def enterPairs {α : Type} (t : Table α) (l : List (String × α)) : Table α :=
  l.foldl (fun t a => t.insert a.1 a.2) t

mutual

theorem enterAttribute_eq (t : Table String) (e : Element) :
    enterAttribute t e = enterPairs t (declaredBy e) := by
  obtain ⟨tag, attributes, children, text⟩ := e
  rw [enterAttribute, declaredBy]
  split
  next => rfl
  next =>
    cases Element.attribute? ⟨tag, attributes, children, text⟩ "name" with
    | none => rfl
    | some name =>
        dsimp only
        split
        next => exact enterAttributes_eq t children
        next => cases Element.childText? ⟨tag, attributes, children, text⟩ "Value" <;> rfl

theorem enterAttributes_eq (t : Table String) (es : List Element) :
    enterAttributes t es = enterPairs t (declaredIn es) := by
  cases es with
  | nil => rfl
  | cons e es =>
      rw [enterAttributes, enterAttribute_eq t e, enterAttributes_eq _ es, declaredIn, enterPairs,
        enterPairs, enterPairs, List.foldl_append]

end

theorem get?_attributesOf (e : Element) (name : String) :
    (attributesOf e).get? name = given? e name := by
  rw [attributesOf, enterAttributes_eq]
  exact Table.get?_ofList _ _

variable {root e : Element} {d : Dataset} {v : Variable}

theorem ofElement_eq_ok_iff : ofElement root = .ok d ↔ root.name = "Dataset" ∧
    d = { name := (root.attribute? "name").getD ""
          dimensions := Table.ofList ((root.childrenNamed "Dimension").filterMap dimension?)
          contents := root.children.filterMap variableOf?
          attributes := attributesOf root } := by
  unfold ofElement
  split
  next h => simp [h]
  next h =>
    rw [ne_eq, Decidable.not_not] at h
    simp [h, eq_comm]

theorem ofElement_eq_error {f : Fault} (h : ofElement root = .error f) : f = otherRoot root.name := by
  unfold ofElement at h
  split at h
  next =>
    cases h
    rfl
  next => cases h

theorem get?_attributes (h : ofElement root = .ok d) (name : String) :
    d.attributes.get? name = given? root name := by
  obtain ⟨-, rfl⟩ := ofElement_eq_ok_iff.1 h
  exact get?_attributesOf root name

theorem get?_dimensions (h : ofElement root = .ok d) (dimension : String) :
    d.dimensions.get? dimension = sizeOf? root dimension := by
  obtain ⟨-, rfl⟩ := ofElement_eq_ok_iff.1 h
  exact Table.get?_ofList _ _

theorem variableOf?_eq_some_iff : variableOf? e = some v ↔
    DeclaresVariable e v.name ∧ v.type = e.name ∧ v.dimensions = dimensionsOf e ∧
      v.attributes = attributesOf e := by
  obtain ⟨name, type, dimensions, attributes⟩ := v
  unfold variableOf?
  split
  next htype =>
    rw [Option.map_eq_some_iff]
    constructor
    · rintro ⟨name, hname, heq⟩
      cases heq
      exact ⟨⟨htype, hname⟩, rfl, rfl, rfl⟩
    · rintro ⟨⟨-, hname⟩, rfl, rfl, rfl⟩
      exact ⟨name, hname, rfl⟩
  next htype =>
    constructor
    · intro h
      cases h
    · rintro ⟨⟨h, -⟩, -⟩
      exact absurd h htype

end Dataset

end CoverageAccess
