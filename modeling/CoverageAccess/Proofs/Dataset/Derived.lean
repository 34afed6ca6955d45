import CoverageAccess.Dataset.Derived
import CoverageAccess.Proofs.Outcome
/-!
# When a coverage is derived

A coverage is derived from a dataset exactly if there is a field over the axes and no name of a
coordinate or of a field is repeated (`describe_eq_ok_iff`). The box asks for nothing more, because its
axes are some of the coordinates. A dataset without a field is the only one that is not found
(`describe_eq_notFound_iff`).
-/

namespace CoverageAccess

namespace Dataset

variable {d : Dataset} {axes : List GridAxis} {a : GridAxis} {x : Axis} {crs : Option String}
  {box : Option Box}

/-- The axes of the box of a dataset. -/
def knownAxes (d : Dataset) (axes : List GridAxis) : List Axis :=
  axes.filterMap d.boxAxis?

theorem name_of_boxAxis? (h : d.boxAxis? a = some x) : x.name = a.coordinate.name := by
  obtain ⟨⟨low, high⟩, -, h⟩ := Option.bind_eq_some_iff.1 h
  obtain ⟨lower, -, h⟩ := Option.bind_eq_some_iff.1 h
  obtain ⟨upper, -, h⟩ := Option.bind_eq_some_iff.1 h
  cases h
  rfl

theorem knownAxes_names_sublist (d : Dataset) (axes : List GridAxis) :
    ((d.knownAxes axes).map Axis.name).Sublist (axes.map fun a => a.coordinate.name) := by
  induction axes with
  | nil => exact .slnil
  | cons a axes ih =>
      rw [knownAxes] at *
      cases h : d.boxAxis? a with
      | none =>
          rw [List.filterMap_cons_none h]
          exact ih.cons _
      | some x =>
          rw [List.filterMap_cons_some h, List.map_cons, List.map_cons, name_of_boxAxis? h]
          exact ih.cons_cons _

/-- The box of a dataset whose coordinates have different names. -/
def boxOver (d : Dataset) (axes : List GridAxis) (crs : Option String) : Option Box :=
  if d.knownAxes axes = [] then none else some ⟨d.knownAxes axes, d.period? axes, crs⟩

theorem boxOver_eq_some_iff {b : Box} : d.boxOver axes crs = some b ↔
    d.knownAxes axes ≠ [] ∧ b = ⟨d.knownAxes axes, d.period? axes, crs⟩ := by
  unfold boxOver
  split
  next h => exact iff_of_false nofun fun hb => hb.1 h
  next h => exact ⟨fun hb => ⟨h, (Option.some.inj hb).symm⟩, fun hb => congrArg some hb.2.symm⟩

theorem boxOver_eq_none_iff : d.boxOver axes crs = none ↔ d.knownAxes axes = [] := by
  unfold boxOver
  split
  next h => exact iff_of_true rfl h
  next h => exact iff_of_false nofun h

theorem extent_eq_ok_iff : d.extent axes crs = .ok box ↔
    ((d.knownAxes axes).map Axis.name).Nodup ∧ box = d.boxOver axes crs := by
  rw [extent, ← knownAxes, boxOver]
  split
  next h => simp [h, eq_comm]
  next h =>
    rw [if_neg h, bind_eq_ok_iff]
    constructor
    · rintro ⟨b, hb, hbox⟩
      obtain ⟨hnodup, rfl⟩ := Box.ofAxes_eq_ok_iff.1 hb
      exact ⟨hnodup, (pure_eq_ok_iff.1 hbox).symm⟩
    · rintro ⟨hnodup, rfl⟩
      exact ⟨_, Box.ofAxes_eq_ok_iff.2 ⟨hnodup, rfl⟩, rfl⟩

end Dataset

namespace Service

variable {s : Service} {d : Dataset} {root : Markup.Element} {id url : String} {c : Coverage}

/-- A coverage is described exactly if there is a field and no name is repeated. -/
theorem describe_eq_ok_iff : s.describe d id url = .ok c ↔
    d.fieldsOver (d.axesOf s.templates) ≠ [] ∧
      ((d.axesOf s.templates).map fun a => a.coordinate.name).Nodup ∧
      ((d.fieldsOver (d.axesOf s.templates)).map Field.name).Nodup ∧
      c = { id
            coordinates := (d.axesOf s.templates).map GridAxis.coordinate
            fields := d.fieldsOver (d.axesOf s.templates)
            nativeFormat := s.nativeFormat
            box := d.boxOver (d.axesOf s.templates) s.crs
            datasetUrl := some url } := by
  have hnames : ((d.axesOf s.templates).map GridAxis.coordinate).map Coordinate.name =
      (d.axesOf s.templates).map fun a => a.coordinate.name := List.map_map
  unfold describe
  dsimp only
  split
  next h => simp [h]
  next h =>
    constructor
    · intro hc
      obtain ⟨box, hbox, hc⟩ := bind_eq_ok_iff.1 hc
      obtain ⟨made, hmade, hc⟩ := bind_eq_ok_iff.1 hc
      obtain ⟨-, rfl⟩ := Dataset.extent_eq_ok_iff.1 (mapError_eq_ok_iff.1 hbox)
      obtain ⟨hcoordinates, hfields, rfl⟩ :=
        Coverage.make_eq_ok_iff.1 (mapError_eq_ok_iff.1 hmade)
      exact ⟨h, hnames ▸ hcoordinates, hfields, (pure_eq_ok_iff.1 hc).symm⟩
    · rintro ⟨-, hcoordinates, hfields, rfl⟩
      -- the axes of the box are some of the coordinates
      have hknown := hcoordinates.sublist (Dataset.knownAxes_names_sublist d (d.axesOf s.templates))
      have hbox : d.extent (d.axesOf s.templates) s.crs = .ok (d.boxOver _ s.crs) :=
        Dataset.extent_eq_ok_iff.2 ⟨hknown, rfl⟩
      rw [← hnames] at hcoordinates
      rw [hbox, mapError_ok, ok_bind, Coverage.make_eq_ok_iff.2 ⟨hcoordinates, hfields, rfl⟩]
      rfl

theorem derive_eq_ok_iff : s.derive root id url = .ok c ↔
    ∃ d, Dataset.ofElement root = .ok d ∧ s.describe d id url = .ok c :=
  bind_eq_ok_iff

/-- The faults of a dataset that is not described. -/
theorem describe_eq_error {f : Fault} (h : s.describe d id url = .error f) :
    d.fieldsOver (d.axesOf s.templates) = [] ∧ f = noFields id (d.axesOf s.templates) ∨
      d.fieldsOver (d.axesOf s.templates) ≠ [] ∧
        ((∃ cause : Box.Refusal, f = cause.fault) ∨ ∃ cause : Coverage.Refusal, f = cause.fault) := by
  unfold describe at h
  dsimp only at h
  split at h
  next hnone =>
    cases h
    exact .inl ⟨hnone, rfl⟩
  next hsome =>
    refine .inr ⟨hsome, ?_⟩
    rcases bind_eq_error_iff.1 h with hbox | ⟨box, -, h⟩
    · obtain ⟨cause, -, rfl⟩ := mapError_eq_error_iff.1 hbox
      exact .inl ⟨cause, rfl⟩
    · rcases bind_eq_error_iff.1 h with hmake | ⟨made, -, h⟩
      · obtain ⟨cause, -, rfl⟩ := mapError_eq_error_iff.1 hmake
        exact .inr ⟨cause, rfl⟩
      · cases h

/-- Only a dataset without a field over the axes is not found. -/
theorem describe_eq_notFound_iff : (∃ text, s.describe d id url = .error (.notFound text)) ↔
    d.fieldsOver (d.axesOf s.templates) = [] := by
  constructor
  · rintro ⟨text, h⟩
    rcases describe_eq_error h with ⟨hnone, -⟩ | ⟨-, ⟨cause, hcause⟩ | ⟨cause, hcause⟩⟩
    · exact hnone
    · cases hcause
    · cases cause <;> cases hcause
  · intro hnone
    exact ⟨_, if_pos hnone⟩

end Service

end CoverageAccess
