import CoverageAccess.Proofs.Constraint.Clause
import CoverageAccess.Proofs.Dataset.Declared
import CoverageAccess.Proofs.Dataset.Derived
import Mathlib.Data.List.ReduceOption
/-!
# The axes of a field in storage

The backend applies the brackets after a variable's name to the axes of the variable, from the first
one on. `storageAxes e` lists these axes as the element `e` declares them, with `none` for a
reference that names no dimension. A field of a derived coverage is a variable whose *named* axes end
with the axes of the grid. So its brackets reach the right axes as soon as the variable has no axis
besides (`storageAxes_eq_iff`), and this is all that can be said: a variable may have further axes
before those of the grid, and axes without a name anywhere.
-/

namespace CoverageAccess

namespace Dataset

open Markup

/-- The axes of the variable that an element declares, in storage order, each with the name of its
dimension if the element gives one. -/
def storageAxes (e : Element) : List (Option String) :=
  (e.childrenNamed "Dim").map fun d => (d.attribute? "name").map dimensionName

/-- The element declares the variable of the field. -/
def Declares (e : Element) (f : Field) : Prop :=
  ∃ v, variableOf? e = some v ∧ fieldOf v = f

/-- The axes of a variable with the brackets after its name: the backend applies the first bracket to
the first axis, and so on. -/
def addressed (e : Element) (brackets : List String) : List (Option String × String) :=
  (storageAxes e).zip brackets

/-- The axes of the variable are those of the grid, in order. -/
def StoredOver (axes : List GridAxis) (e : Element) : Prop :=
  storageAxes e = axes.map fun a => some a.dimension

theorem dimensionsOf_eq_reduceOption (e : Element) :
    dimensionsOf e = (storageAxes e).reduceOption := by
  rw [dimensionsOf, storageAxes, List.reduceOption, List.filterMap_map]
  rfl

theorem dimensions_of_variableOf? {e : Element} {v : Variable} (h : variableOf? e = some v) :
    v.dimensions = (storageAxes e).reduceOption := by
  obtain ⟨-, -, hdimensions, -⟩ := variableOf?_eq_some_iff.1 h
  rw [hdimensions, dimensionsOf_eq_reduceOption]

theorem eq_map_some_reduceOption {α : Type} {l : List (Option α)} (h : ∀ x ∈ l, x.isSome) :
    l = l.reduceOption.map some := by
  induction l with
  | nil => rfl
  | cons x l ih =>
      obtain ⟨a, rfl⟩ := Option.isSome_iff_exists.1 (h x List.mem_cons_self)
      rw [List.reduceOption_cons_of_some, List.map_cons,
        ← ih fun y hy => h y (List.mem_cons_of_mem _ hy)]

theorem eq_map_some_of_isSuffix {α : Type} {names : List α} {l : List (Option α)}
    (hs : names <:+ l.reduceOption) (hl : l.length = names.length) : l = names.map some := by
  have hle : l.reduceOption.length ≤ names.length := hl ▸ List.reduceOption_length_le l
  have heq : names = l.reduceOption := hs.eq_of_length_le hle
  have hsome : ∀ x ∈ l, x.isSome := by
    rw [← List.reduceOption_length_eq_iff, ← heq, hl]
  rw [heq]
  exact eq_map_some_reduceOption hsome

theorem storageAxes_eq_iff {axes : List GridAxis} {e : Element}
    (h : axes.map GridAxis.dimension <:+ (storageAxes e).reduceOption) :
    StoredOver axes e ↔ (storageAxes e).length = axes.length := by
  constructor
  · intro he
    rw [StoredOver] at he
    rw [he, List.length_map]
  · intro hl
    have := eq_map_some_of_isSuffix h (by rw [hl, List.length_map])
    rw [StoredOver, this, List.map_map]
    rfl

theorem mem_contents_of_ofElement {root : Element} {d : Dataset} {v : Variable}
    (hd : ofElement root = .ok d) (hv : v ∈ d.contents) :
    ∃ e ∈ root.children, variableOf? e = some v := by
  obtain ⟨-, rfl⟩ := ofElement_eq_ok_iff.1 hd
  exact List.mem_filterMap.1 hv

theorem mem_fieldsOver_iff {d : Dataset} {axes : List GridAxis} {f : Field} :
    f ∈ d.fieldsOver axes ↔
      ∃ v ∈ d.contents, isCoordinateVariable axes v = false ∧
        axes.map GridAxis.dimension <:+ v.dimensions ∧ fieldOf v = f := by
  simp only [fieldsOver, isGridded, List.mem_map, List.mem_filter, Bool.and_eq_true,
    Bool.not_eq_true', List.isSuffixOf_iff_suffix]
  constructor
  · rintro ⟨v, ⟨hv, hn, hs⟩, rfl⟩
    exact ⟨v, hv, hn, hs, rfl⟩
  · rintro ⟨v, hv, hn, hs, rfl⟩
    exact ⟨v, ⟨hv, hn, hs⟩, rfl⟩

end Dataset

namespace Service

/-- What a derived coverage takes from its dataset: the coordinates of the axes and the fields over
them. -/
theorem derive_eq_ok {s : Service} {root : Markup.Element} {id url : String} {c : Coverage}
    (h : s.derive root id url = .ok c) :
    ∃ d, Dataset.ofElement root = .ok d ∧
      c.coordinates = (d.axesOf s.templates).map GridAxis.coordinate ∧
      c.fields = d.fieldsOver (d.axesOf s.templates) := by
  obtain ⟨d, hd, h⟩ := derive_eq_ok_iff.1 h
  obtain ⟨-, -, -, rfl⟩ := describe_eq_ok_iff.1 h
  exact ⟨d, hd, rfl, rfl⟩

end Service

namespace Dataset

open Markup

/-- On a variable that has the axes of the grid and no others, every bracket reaches the axis of its
coordinate. -/
theorem addressed_of_storedOver {axes : List GridAxis} {e : Element} (h : StoredOver axes e)
    {subsets : Table Subset} {a : GridAxis} (ha : a ∈ axes)
    (hb : (Coverage.bracketOf? subsets a.coordinate).isSome) :
    addressed e (Coverage.brackets subsets (axes.map GridAxis.coordinate)) =
      axes.map fun a =>
        (some a.dimension, (Coverage.bracketOf? subsets a.coordinate).getD "[*]") := by
  have hmem : a.coordinate ∈ axes.map GridAxis.coordinate := List.mem_map_of_mem ha
  rw [addressed, h, Coverage.brackets_eq_map hmem hb, List.map_map, List.zip_map']
  rfl

/-- A field of a derived coverage comes from a variable whose named axes end with those of the
coordinates, in order. Its axes are those of the coordinates exactly if there are as many of them,
and then the brackets of every selection by position reach the axes of their coordinates. -/
theorem derived_field_storage {s : Service} {root : Element} {id url : String} {c : Coverage}
    {f : Field} (h : s.derive root id url = .ok c) (hf : f ∈ c.fields) :
    ∃ d e, ofElement root = .ok d ∧ e ∈ root.children ∧ Declares e f ∧
      c.coordinates = (d.axesOf s.templates).map GridAxis.coordinate ∧
      (d.axesOf s.templates).map GridAxis.dimension <:+ (storageAxes e).reduceOption ∧
      (StoredOver (d.axesOf s.templates) e ↔ (storageAxes e).length = c.coordinates.length) ∧
      ∀ subsets : Table Subset, (∀ entry ∈ subsets.entries, entry.2.byPosition = true) →
        ∃ clause, c.clause subsets f = .ok clause ∧
          clause.render = f.variableId ++ Text.join "" clause.brackets ∧
          ∀ a ∈ d.axesOf s.templates, (Coverage.bracketOf? subsets a.coordinate).isSome →
            (storageAxes e).length = c.coordinates.length →
            addressed e clause.brackets = (d.axesOf s.templates).map fun a =>
              (some a.dimension, (Coverage.bracketOf? subsets a.coordinate).getD "[*]") := by
  obtain ⟨d, hd, hcoords, hfields⟩ := Service.derive_eq_ok h
  rw [hfields] at hf
  obtain ⟨v, hv, -, hsuffix, hfield⟩ := mem_fieldsOver_iff.1 hf
  obtain ⟨e, he, hvar⟩ := mem_contents_of_ofElement hd hv
  rw [dimensions_of_variableOf? hvar] at hsuffix
  have hlength : c.coordinates.length = (d.axesOf s.templates).length := by
    rw [hcoords, List.length_map]
  have hstored : StoredOver (d.axesOf s.templates) e ↔
      (storageAxes e).length = c.coordinates.length := by
    rw [hlength]
    exact storageAxes_eq_iff hsuffix
  refine ⟨d, e, hd, he, ⟨v, hvar, hfield⟩, hcoords, hsuffix, hstored, ?_⟩
  intro subsets hpos
  refine ⟨_, Coverage.clause_of_forall_byPosition hpos c f, rfl, ?_⟩
  intro a ha hb hcount
  rw [hcoords]
  exact addressed_of_storedOver (hstored.2 hcount) ha hb

/-- The element of a variable with the given axes. -/
def variableElement (name : String) (axes : List (Option String)) : Element :=
  { name := "Float32"
    attributes := [("name", name)]
    children := axes.map fun a => ⟨"Dim", a.toList.map fun n => ("name", n), [], ""⟩
    text := "" }

/-- A document with a variable over the latitude alone, one that has a level before it, and one that
has an axis without a name after it. -/
def layered : Element :=
  { name := "Dataset"
    attributes := [("name", "layered")]
    children :=
      [variableElement "lat" [some "/lat"], variableElement "flat" [some "/lat"],
        variableElement "deep" [some "/level", some "/lat"],
        variableElement "loose" [some "/lat", none]]
    text := "" }

/-- A service of grids over the latitude. -/
def latitudes : Service :=
  { stem := "grids/"
    name := none
    base := "http://localhost/"
    crs := none
    nativeFormat := Service.defaultFormat
    templates := [⟨⟨"latitude", "lat", "degrees_north", 180, some .latitude⟩, none, none⟩] }

/-- The coverage of the layered document. -/
def layeredCoverage : Coverage :=
  { id := "grids/layered"
    coordinates := [⟨"latitude", "lat", "degrees_north", 180, some .latitude⟩]
    fields := ["flat", "deep", "loose"].map fun name => ⟨name, name, none, none⟩
    nativeFormat := Service.defaultFormat
    box := none
    datasetUrl := some "http://localhost/layered" }

theorem derive_layered :
    latitudes.derive layered "grids/layered" "http://localhost/layered" = .ok layeredCoverage := by
  rfl

/-- A field of a derived coverage may have more axes than the coverage has coordinates: a level
before the latitude, or an axis without a name after it. -/
theorem derived_fields_with_more_axes :
    latitudes.templates ≠ [] ∧
      latitudes.derive layered "grids/layered" "http://localhost/layered" = .ok layeredCoverage ∧
      layeredCoverage.fields.map Field.name = ["flat", "deep", "loose"] ∧
      ∀ f ∈ layeredCoverage.fields, f.name ≠ "flat" → ∀ e ∈ layered.children, Declares e f →
        (storageAxes e).length ≠ layeredCoverage.coordinates.length := by
  refine ⟨List.cons_ne_nil _ _, derive_layered, rfl, ?_⟩
  intro f hf hflat e he hdecl
  obtain ⟨v, hv, rfl⟩ := hdecl
  have hne : v.name ≠ "lat" := by
    intro hv
    have : (fieldOf v).name ∈ ["flat", "deep", "loose"] := List.mem_map_of_mem hf
    rw [show (fieldOf v).name = "lat" from hv] at this
    exact absurd this (by decide)
  simp only [layered, List.mem_cons, List.not_mem_nil, or_false] at he
  rcases he with rfl | rfl | rfl | rfl
  · cases hv
    exact absurd rfl hne
  · cases hv
    exact absurd rfl hflat
  · decide
  · decide

/-- The flat variable of the layered document has the axis of the latitude alone, so a bracket
reaches it. -/
theorem flat_field_storage :
    latitudes.derive layered "grids/layered" "http://localhost/layered" = .ok layeredCoverage ∧
      (⟨"flat", "flat", none, none⟩ : Field) ∈ layeredCoverage.fields ∧
      ∃ d e, ofElement layered = .ok d ∧ e ∈ layered.children ∧
        Declares e ⟨"flat", "flat", none, none⟩ ∧
        (StoredOver (d.axesOf latitudes.templates) e ↔ (storageAxes e).length = 1) := by
  have hf : (⟨"flat", "flat", none, none⟩ : Field) ∈ layeredCoverage.fields :=
    List.mem_cons_self
  obtain ⟨d, e, hd, he, hdecl, -, -, hiff, -⟩ := derived_field_storage derive_layered hf
  exact ⟨derive_layered, hf, d, e, hd, he, hdecl, hiff⟩

end Dataset

end CoverageAccess
