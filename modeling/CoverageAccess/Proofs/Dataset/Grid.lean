import CoverageAccess.Proofs.Dataset.Declared
import CoverageAccess.Proofs.Dataset.Derived
import CoverageAccess.Proofs.Dataset.Storage
import CoverageAccess.Proofs.Picking
/-!
# The grid of a document

What the axes and the fields of a derived coverage are, said of the document alone: which element a
coordinate is read from (`IsVariableFor`), what it takes from there and what from its template
(`IsAxis`), and which elements are fields (`IsFieldOver`). A document has exactly one grid for a list of
templates, and a coverage is derived exactly if the grid has a field and repeats no name
(`derive_grid`).
-/

namespace CoverageAccess

namespace Dataset

open Markup

/-- The element declares a variable with one named dimension and the given standard name. -/
structure IsKnownBy (standard : String) (e : Element) : Prop where
  declares : ∃ name, DeclaresVariable e name
  dimension : ∃ name, dimensionsOf e = [name]
  standard : given? e "standard_name" = some standard

/-- The element of the variable that a coordinate is read from: the first one that is known by the
standard name, or, when none is, the first one of the name that the coordinate expects. -/
inductive IsVariableFor (root : Element) (c : Coordinate) (e : Element) : Prop
  | byStandardName (h : IsFirst (IsKnownBy (standardName c)) root.children e)
  | byName (hnone : ∀ x ∈ root.children, ¬IsKnownBy (standardName c) x)
      (h : IsFirst (fun x => DeclaresVariable x c.variableId) root.children e)

/-- The axis has the name and the role of its template, and the rest from the element of its variable
as far as the document says it. -/
structure IsReadFrom (root e : Element) (a : GridAxis) : Prop where
  name : a.coordinate.name = a.template.coordinate.name
  role : a.coordinate.role = a.template.coordinate.role
  variableId : e.attribute? "name" = some a.coordinate.variableId
  units : a.coordinate.units = (given? e "units").getD a.template.coordinate.units
  size : a.coordinate.size = (sizeOf? root a.dimension).getD a.template.coordinate.size
  dimension : a.dimension = (dimensionsOf e).head?.getD a.coordinate.variableId

/-- The axis is that of its template in the document. -/
inductive IsAxis (root : Element) (a : GridAxis) : Prop
  | known {e : Element} (he : IsVariableFor root a.template.coordinate e) (ha : IsReadFrom root e a)
  | unknown (h : ∀ e, ¬IsVariableFor root a.template.coordinate e)
      (hcoordinate : a.coordinate = a.template.coordinate)
      (hdimension : a.dimension = a.template.coordinate.variableId)

/-- The field is that of an element which declares a variable over the axes that is none of their
own. -/
structure IsFieldOver (axes : List GridAxis) (e : Element) (f : Field) : Prop where
  declares : DeclaresVariable e f.name
  variableId : f.variableId = f.name
  description : f.description = given? e "long_name"
  units : f.units = given? e "units"
  other : ∀ a ∈ axes, a.coordinate.variableId ≠ f.name
  gridded : axes.map GridAxis.dimension <:+ dimensionsOf e

/-- One axis for every template, in order, and one field for every element that is a field over
them. -/
structure IsGrid (root : Element) (templates : List Template) (axes : List GridAxis)
    (fields : List Field) : Prop where
  template : axes.map GridAxis.template = templates
  axis : ∀ a ∈ axes, IsAxis root a
  field : Picks (IsFieldOver axes) root.children fields

variable {root e : Element} {d : Dataset} {c : Coordinate} {v : Variable} {a : GridAxis}
  {axes : List GridAxis} {fields : List Field} {templates : List Template}

theorem exists_variableOf?_iff {p : Variable → Prop} : (∃ v, variableOf? e = some v ∧ p v) ↔
    ∃ name, DeclaresVariable e name ∧ p ⟨name, e.name, dimensionsOf e, attributesOf e⟩ := by
  constructor
  · rintro ⟨⟨name, _, _, _⟩, hv, hp⟩
    obtain ⟨hname, rfl, rfl, rfl⟩ := variableOf?_eq_some_iff.1 hv
    exact ⟨name, hname, hp⟩
  · rintro ⟨name, hname, hp⟩
    exact ⟨_, variableOf?_eq_some_iff.2 ⟨hname, rfl, rfl, rfl⟩, hp⟩

theorem isAxisVariable_iff {standard : String} :
    (∃ v, variableOf? e = some v ∧ isAxisVariable standard v = true) ↔ IsKnownBy standard e := by
  simp only [exists_variableOf?_iff, isAxisVariable, Bool.and_eq_true, beq_iff_eq,
    List.length_eq_one_iff, get?_attributesOf]
  constructor
  · rintro ⟨name, hname, hdimension, hstandard⟩
    exact ⟨⟨name, hname⟩, hdimension, hstandard⟩
  · rintro ⟨⟨name, hname⟩, hdimension, hstandard⟩
    exact ⟨name, hname, hdimension, hstandard⟩

theorem variableNamed_iff {name : String} :
    (∃ v, variableOf? e = some v ∧ (v.name == name) = true) ↔ DeclaresVariable e name := by
  simp [exists_variableOf?_iff]

/-- The variable of a coordinate is found by its element. -/
theorem axisVariable?_eq_some_iff (hd : ofElement root = .ok d) : d.axisVariable? c = some v ↔
    ∃ e, IsVariableFor root c e ∧ variableOf? e = some v := by
  obtain ⟨-, rfl⟩ := ofElement_eq_ok_iff.1 hd
  rw [axisVariable?, variableNamed?, Option.or_eq_some_iff]
  dsimp only
  rw [find?_filterMap_eq_some_iff fun _ => isAxisVariable_iff,
    find?_filterMap_eq_none_iff fun _ => isAxisVariable_iff,
    find?_filterMap_eq_some_iff fun _ => variableNamed_iff]
  constructor
  · rintro (⟨e, he, hv⟩ | ⟨hnone, e, he, hv⟩)
    · exact ⟨e, .byStandardName he, hv⟩
    · exact ⟨e, .byName hnone he, hv⟩
  · rintro ⟨e, he, hv⟩
    cases he with
    | byStandardName he => exact .inl ⟨e, he, hv⟩
    | byName hnone he => exact .inr ⟨hnone, e, he, hv⟩

theorem IsVariableFor.exists_variable (h : IsVariableFor root c e) :
    ∃ v, variableOf? e = some v := by
  have hdeclares : ∃ name, DeclaresVariable e name := by
    cases h with
    | byStandardName h => exact h.holds.declares
    | byName _ h => exact ⟨_, h.holds⟩
  obtain ⟨name, hname⟩ := hdeclares
  exact ⟨⟨name, _, _, _⟩, variableOf?_eq_some_iff.2 ⟨hname, rfl, rfl, rfl⟩⟩

theorem axisVariable?_eq_none_iff (hd : ofElement root = .ok d) :
    d.axisVariable? c = none ↔ ∀ e, ¬IsVariableFor root c e := by
  rw [Option.eq_none_iff_forall_ne_some]
  constructor
  · intro hnone e he
    obtain ⟨v, hv⟩ := he.exists_variable
    exact hnone v ((axisVariable?_eq_some_iff hd).2 ⟨e, he, hv⟩)
  · intro hnone v hv
    obtain ⟨e, he, -⟩ := (axisVariable?_eq_some_iff hd).1 hv
    exact hnone e he

theorem isReadFrom_iff (hd : ofElement root = .ok d) (hv : variableOf? e = some v) :
    IsReadFrom root e a ↔ a = d.axisOfVariable a.template v := by
  obtain ⟨⟨name, variableId, units, size, role⟩, dimension, template⟩ := a
  obtain ⟨id, _, _, _⟩ := v
  obtain ⟨⟨-, hid⟩, rfl, rfl, rfl⟩ := variableOf?_eq_some_iff.1 hv
  dsimp only at hid
  simp only [axisOfVariable, spannedDimension, get?_attributesOf, get?_dimensions hd,
    GridAxis.mk.injEq, Coordinate.mk.injEq, and_true]
  constructor
  · rintro ⟨hname, hrole, hvariable, hunits, hsize, hdimension⟩
    dsimp only at *
    rw [hid, Option.some.injEq] at hvariable
    subst hvariable hdimension
    exact ⟨⟨hname, rfl, hunits, hsize, hrole⟩, rfl⟩
  · rintro ⟨⟨hname, rfl, hunits, hsize, hrole⟩, rfl⟩
    exact ⟨hname, hrole, hid, hunits, hsize, rfl⟩

/-- A template has exactly one axis in a document. -/
theorem isAxis_iff (hd : ofElement root = .ok d) : IsAxis root a ↔ a = d.axisOf a.template := by
  rw [axisOf]
  split
  next v hv =>
    constructor
    · intro ha
      cases ha with
      | known he ha =>
          obtain ⟨v', hv'⟩ := he.exists_variable
          have hsame := (axisVariable?_eq_some_iff hd).2 ⟨_, he, hv'⟩
          rw [hv, Option.some.injEq] at hsame
          exact (isReadFrom_iff hd (hsame ▸ hv')).1 ha
      | unknown hnone _ _ =>
          rw [(axisVariable?_eq_none_iff hd).2 hnone] at hv
          cases hv
    · intro ha
      obtain ⟨e, he, hvariable⟩ := (axisVariable?_eq_some_iff hd).1 hv
      exact .known he ((isReadFrom_iff hd hvariable).2 ha)
  next hnone =>
    rw [axisVariable?_eq_none_iff hd] at hnone
    obtain ⟨coordinate, dimension, template⟩ := a
    constructor
    · intro ha
      cases ha with
      | known he _ => exact absurd he (hnone _)
      | unknown _ hcoordinate hdimension =>
          dsimp only at *
          rw [hcoordinate, hdimension]
    · intro ha
      obtain ⟨hcoordinate, hdimension, -⟩ := GridAxis.mk.inj ha
      exact .unknown hnone hcoordinate hdimension

theorem isCoordinateVariable_eq_false_iff :
    isCoordinateVariable axes v = false ↔ ∀ a ∈ axes, a.coordinate.variableId ≠ v.name := by
  simp [isCoordinateVariable]

theorem picks_isFieldOver_iff (hd : ofElement root = .ok d) :
    Picks (IsFieldOver axes) root.children fields ↔ fields = d.fieldsOver axes := by
  obtain ⟨-, rfl⟩ := ofElement_eq_ok_iff.1 hd
  rw [fieldsOver, List.filter_filterMap, List.map_filterMap, eq_comm (a := fields)]
  refine picks_iff fun e _ f => ?_
  obtain ⟨name, variableId, description, units⟩ := f
  simp only [Option.map_eq_some_iff, Option.filter_eq_some_iff, and_assoc, exists_variableOf?_iff,
    Bool.and_eq_true, Bool.not_eq_true', isCoordinateVariable_eq_false_iff, isGridded,
    List.isSuffixOf_iff_suffix, fieldOf, get?_attributesOf, Field.mk.injEq]
  constructor
  · rintro ⟨_, hname, hother, hgridded, rfl, rfl, rfl, rfl⟩
    exact ⟨hname, rfl, rfl, rfl, hother, hgridded⟩
  · rintro ⟨hname, hvariable, hdescription, hunits, hother, hgridded⟩
    exact ⟨name, hname, hother, hgridded, rfl, hvariable.symm, hdescription.symm, hunits.symm⟩

theorem template_axisOf (d : Dataset) (t : Template) : (d.axisOf t).template = t := by
  unfold axisOf
  split <;> rfl

theorem map_template_axesOf (d : Dataset) (templates : List Template) :
    (d.axesOf templates).map GridAxis.template = templates := by
  rw [axesOf, List.map_map]
  exact List.map_id'' (template_axisOf d) templates

/-- A document has exactly one grid for a list of templates. -/
theorem isGrid_iff (hd : ofElement root = .ok d) : IsGrid root templates axes fields ↔
    axes = d.axesOf templates ∧ fields = d.fieldsOver (d.axesOf templates) := by
  constructor
  · rintro ⟨rfl, haxis, hfield⟩
    have haxes : d.axesOf (axes.map GridAxis.template) = axes := by
      rw [axesOf, List.map_map, List.map_congr_left (g := id), List.map_id]
      intro a ha
      exact ((isAxis_iff hd).1 (haxis a ha)).symm
    rw [haxes]
    exact ⟨rfl, (picks_isFieldOver_iff hd).1 hfield⟩
  · rintro ⟨rfl, rfl⟩
    refine ⟨map_template_axesOf d templates, fun a ha => ?_, (picks_isFieldOver_iff hd).2 rfl⟩
    obtain ⟨t, -, rfl⟩ := List.mem_map.1 ha
    rw [isAxis_iff hd, template_axisOf]

theorem IsAxis.name_eq (h : IsAxis root a) : a.coordinate.name = a.template.coordinate.name := by
  cases h with
  | known _ ha => exact ha.name
  | unknown _ hcoordinate _ => rw [hcoordinate]

theorem IsGrid.names_eq (h : IsGrid root templates axes fields) :
    (axes.map fun a => a.coordinate.name) = templates.map fun t => t.coordinate.name := by
  rw [← h.template, List.map_map]
  exact List.map_congr_left fun a ha => (h.axis a ha).name_eq

/-- A document has one grid for the templates of a service, whose axes and fields a derived coverage
has. The coverage is not found exactly if no element is a field, and otherwise it is refused exactly if
a name of a coordinate or of a field is repeated. -/
theorem derive_grid (s : Service) (id url : String) (hroot : root.name = "Dataset") :
    ∃ axes fields,
      (∀ axes' fields', IsGrid root s.templates axes' fields' ↔ axes' = axes ∧ fields' = fields) ∧
      (∀ c, s.derive root id url = .ok c → c.coordinates = axes.map GridAxis.coordinate ∧
        c.fields = fields ∧ (c.fields.map Field.name).Nodup) ∧
      ((∃ text, s.derive root id url = .error (.notFound text)) ↔
        ∀ e ∈ root.children, ∀ f, ¬IsFieldOver axes e f) ∧
      (fields ≠ [] → ((∃ c, s.derive root id url = .ok c) ↔
        (s.templates.map fun t => t.coordinate.name).Nodup ∧ (fields.map Field.name).Nodup)) := by
  obtain ⟨d, hd⟩ : ∃ d, ofElement root = .ok d := ⟨_, ofElement_eq_ok_iff.2 ⟨hroot, rfl⟩⟩
  have hderive : s.derive root id url = s.describe d id url := by
    rw [Service.derive, hd, ok_bind]
  have hgrid : IsGrid root s.templates (d.axesOf s.templates) (d.fieldsOver (d.axesOf s.templates)) :=
    (isGrid_iff hd).2 ⟨rfl, rfl⟩
  refine ⟨d.axesOf s.templates, d.fieldsOver (d.axesOf s.templates), fun _ _ => isGrid_iff hd,
    ?_, ?_, ?_⟩
  · intro c hc
    rw [hderive, Service.describe_eq_ok_iff] at hc
    obtain ⟨-, -, hnodup, rfl⟩ := hc
    exact ⟨rfl, rfl, hnodup⟩
  · rw [hderive, Service.describe_eq_notFound_iff, hgrid.field.eq_nil_iff]
  · intro hne
    rw [hderive, ← hgrid.names_eq]
    simp only [Service.describe_eq_ok_iff]
    constructor
    · rintro ⟨c, -, hcoordinates, hfields, -⟩
      exact ⟨hcoordinates, hfields⟩
    · rintro ⟨hcoordinates, hfields⟩
      exact ⟨_, hne, hcoordinates, hfields, rfl⟩

/-- The element of an attribute with a value. -/
def attributeElement (name value : String) : Element :=
  { name := "Attribute"
    attributes := [("name", name)]
    children := [⟨"Value", [], [], value⟩]
    text := "" }

/-- The element of a dimension. -/
def dimensionElement (name size : String) : Element :=
  ⟨"Dimension", [("name", name), ("size", size)], [], ""⟩

/-- The northings have the standard name of latitudes, in a container, so the variable that is called
like the latitudes is a field. The last size of their dimension cannot be read. -/
def surveyed : Element :=
  let northings := variableElement "north" [some "/grid/y"]
  let described : Element := ⟨"Attribute", [("name", "cf"), ("type", "Container")],
    [attributeElement "standard_name" "latitude", attributeElement "units" "degrees"], ""⟩
  { name := "Dataset"
    attributes := [("name", "surveyed")]
    children :=
      [dimensionElement "/y" "180", dimensionElement "/grid/y" "90", dimensionElement "/y" "many",
        variableElement "lat" [some "/y"],
        { northings with children := northings.children ++ [described] },
        variableElement "deep" [some "/level", none, some "/y"],
        variableElement "turned" [some "/y", some "/level"]]
    text := "" }

theorem derive_grid_surveyed :
    surveyed.name = "Dataset" ∧ ∃ axes fields, IsGrid surveyed latitudes.templates axes fields ∧
      axes.map GridAxis.coordinate = [⟨"latitude", "north", "degrees", 90, some .latitude⟩] ∧
      fields.map Field.name = ["lat", "deep"] ∧
      ∃ c, latitudes.derive surveyed "grids/surveyed" "http://localhost/surveyed" = .ok c := by
  have hroot : surveyed.name = "Dataset" := rfl
  have hderived : (latitudes.derive surveyed "grids/surveyed" "http://localhost/surveyed").toOption.map
      (fun c => (c.coordinates, c.fields.map Field.name)) =
        some ([⟨"latitude", "north", "degrees", 90, some .latitude⟩], ["lat", "deep"]) := by
    decide +kernel
  obtain ⟨c, hc, hparts⟩ := Option.map_eq_some_iff.1 hderived
  rw [toOption_eq_some_iff] at hc
  obtain ⟨hcoordinates, hnames⟩ := Prod.mk.inj hparts
  obtain ⟨axes, fields, hgrid, hok, -⟩ :=
    derive_grid latitudes "grids/surveyed" "http://localhost/surveyed" hroot
  obtain ⟨haxes, hfields, -⟩ := hok c hc
  rw [haxes] at hcoordinates
  rw [hfields] at hnames
  exact ⟨hroot, axes, fields, (hgrid axes fields).2 ⟨rfl, rfl⟩, hcoordinates, hnames, c, hc⟩

end Dataset

end CoverageAccess
