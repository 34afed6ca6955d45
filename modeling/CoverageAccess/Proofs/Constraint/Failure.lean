import CoverageAccess.Proofs.Constraint.Clause
import CoverageAccess.Proofs.Request.Entering
import CoverageAccess.Proofs.Request.Parts
/-!
# Selections without an expression

A selection is hindered if a subset is filed under another name than that of its dimension or under
the name of no axis, or if a named field is not there; and, if a field is selected at all, if a time
bound cannot be read, or if a scaling lacks two axes or names one that is not there. The main result,
`Coverage.expression_fails_iff`, says that there is no expression exactly then, and whose fault that
is. It is put together from one lemma for each function of the compiler that says when the function
has an answer, and one that says what faults it has.
-/

namespace CoverageAccess

/-- The fault lies with the service. -/
def Fault.IsInternal (f : Fault) : Prop :=
  ∃ text, f = .internal text

/-- A parameter has a value that cannot be used. -/
def Fault.IsInvalid (f : Fault) : Prop :=
  ∃ locator text, f = .invalid locator text

namespace Subset

variable {units target b : String} {t : Selection} {s : Subset} {f : Fault}

/-- The bound is a number or a time position, so that it can be put into units of time. -/
def IsTimeBound (bound : String) : Prop :=
  (Number.real? bound).isSome ∨ ∃ i, Time.parsePosition bound = .ok i

theorem exists_boundInUnits_iff : (∃ b', boundInUnits units b = .ok b') ↔ IsTimeBound b := by
  unfold boundInUnits IsTimeBound
  split
  next h => simp [h]
  next h => simp [h]

theorem exists_selectionInUnits_iff :
    (∃ t', selectionInUnits units t = .ok t') ↔ ∀ b ∈ t.bounds, IsTimeBound b := by
  simp only [← @exists_boundInUnits_iff units]
  cases t with
  | trim low high =>
      simp only [Selection.bounds, List.forall_mem_cons, List.not_mem_nil, false_implies,
        implies_true, and_true]
      exact exists_bind_iff fun _ _ => exists_bind_pure_iff
  | slice point => simp [selectionInUnits, Selection.bounds]

theorem exists_timeCondition_iff :
    (∃ text, s.timeCondition units target = .ok text) ↔
      ∀ b ∈ s.selection.bounds, IsTimeBound b := by
  rw [← @exists_selectionInUnits_iff units]
  simp [timeCondition]

theorem isInvalid_of_boundInUnits (h : boundInUnits units b = .error f) : f.IsInvalid := by
  unfold boundInUnits at h
  split at h
  · cases h
  · obtain ⟨cause, -, rfl⟩ := mapError_eq_error_iff.1 (map_eq_error_iff.1 h)
    exact ⟨_, _, rfl⟩

theorem isInvalid_of_timeCondition (h : s.timeCondition units target = .error f) :
    f.IsInvalid := by
  replace h := map_eq_error_iff.1 h
  cases hs : s.selection with
  | trim low high =>
      rw [hs, selectionInUnits] at h
      rcases bind_eq_error_iff.1 h with h | ⟨low', -, h⟩
      · exact isInvalid_of_boundInUnits h
      · rcases bind_eq_error_iff.1 h with h | ⟨high', -, h⟩
        · exact isInvalid_of_boundInUnits h
        · cases h
  | slice point =>
      rw [hs] at h
      exact isInvalid_of_boundInUnits (map_eq_error_iff.1 h)

end Subset

namespace Scaling

variable {s : Scaling} {axes : List Coordinate} {text : String} {r : Refusal}

theorem gridAxes?_eq_none_iff : gridAxes? axes = .none ↔ axes.length < 2 := by
  induction axes with
  | nil => simp [gridAxes?]
  | cons a rest ih =>
      match rest, ih with
      | [], _ => simp [gridAxes?]
      | [b], _ => simp [gridAxes?]
      | b :: c :: rest, ih =>
        rw [gridAxes?, ih]
        simp only [List.length_cons]
        omega

theorem wrap_eq_error (h : s.wrap text axes = .error r) :
    (axes.length < 2 ∧ r.fault.IsInternal) ∨
      (∃ a ∈ s.axes, a ∉ axes.map Coordinate.name) ∧ r.fault.IsInvalid := by
  unfold wrap at h
  split at h
  next hgrid =>
    cases h
    exact .inl ⟨gridAxes?_eq_none_iff.1 hgrid, _, rfl⟩
  next =>
    dsimp only at h
    split at h
    next a ha =>
      cases h
      exact .inr ⟨⟨a, List.mem_of_find?_eq_some ha, by simpa using List.find?_some ha⟩, _, _, rfl⟩
    next => cases h

theorem exists_wrap_iff :
    (∃ wrapped, s.wrap text axes = .ok wrapped) ↔
      2 ≤ axes.length ∧ ∀ a ∈ s.axes, a ∈ axes.map Coordinate.name := by
  unfold wrap
  cases hgrid : gridAxes? axes with
  | none =>
      have hfew : ¬2 ≤ axes.length := Nat.not_le_of_lt (gridAxes?_eq_none_iff.1 hgrid)
      simp [hfew]
  | some grid =>
      have htwo : 2 ≤ axes.length := by
        by_contra hfew
        rw [gridAxes?_eq_none_iff.2 (Nat.lt_of_not_le hfew)] at hgrid
        cases hgrid
      simp only [htwo, true_and]
      cases hfind : s.axes.find? fun a => a ∉ axes.map Coordinate.name with
      | none =>
          have hall := List.find?_eq_none.1 hfind
          simpa using hall
      | some a =>
          have hmem := List.mem_of_find?_eq_some hfind
          have hnot : a ∉ axes.map Coordinate.name := by simpa using List.find?_some hfind
          simp only [reduceCtorEq, exists_false, false_iff]
          exact fun hall => hnot (hall a hmem)

end Scaling

namespace Coverage

variable {c : Coverage} {subsets : Table Subset} {scaling : Scaling} {names : List String}
  {a : Coordinate} {f : Field} {e : Fault}

/-- A subset is filed under another name than that of its dimension. -/
def Misfiles (subsets : Table Subset) : Prop :=
  ∃ entry ∈ subsets.entries, entry.1 ≠ entry.2.dimension

/-- A subset is filed under the name of no axis. -/
def MissesAxis (c : Coverage) (subsets : Table Subset) : Prop :=
  ∃ entry ∈ subsets.entries, entry.1 ∉ c.coordinateNames

/-- A name is that of no field. -/
def MissesField (c : Coverage) (names : List String) : Prop :=
  ∃ name ∈ names, name ∉ c.fieldNames

/-- At least one field is selected. -/
def SelectsField (c : Coverage) (names : List String) : Prop :=
  names ≠ [] ∨ c.fields ≠ []

/-- A subset by value of a time coordinate has a bound that is neither a number nor a time
position. -/
def HasIllegibleTime (c : Coverage) (subsets : Table Subset) : Prop :=
  ∃ a ∈ c.coordinates, a.role = some .time ∧ ∃ s, subsets.get? a.name = some s ∧
    s.byValue = true ∧ ∃ b ∈ s.selection.bounds, ¬Subset.IsTimeBound b

/-- There is a scaling, and there are not two axes to resample. -/
def LacksGrid (c : Coverage) (scaling : Scaling) : Prop :=
  scaling.isActive = true ∧ c.coordinates.length < 2

/-- There is a scaling, and it names an axis that is not there. -/
def MissesScaledAxis (c : Coverage) (scaling : Scaling) : Prop :=
  scaling.isActive = true ∧ ∃ axis ∈ scaling.axes, axis ∉ c.coordinateNames

theorem isSome_coordinate?_iff {name : String} :
    (c.coordinate? name).isSome ↔ name ∈ c.coordinateNames := by
  simp [coordinate?, coordinateNames, List.find?_isSome]

theorem isSome_field?_iff {name : String} : (c.field? name).isSome ↔ name ∈ c.fieldNames := by
  simp [field?, fieldNames, List.find?_isSome]

theorem checkSubsets_eq_error {entries : List (String × Subset)} {r : SelectionRefusal}
    (h : c.checkSubsets entries = .error r) :
    (∃ entry ∈ entries, entry.1 ≠ entry.2.dimension) ∧ r.fault.IsInternal ∨
      r.fault.IsInvalid := by
  induction entries with
  | nil => cases h
  | cons entry rest ih =>
      obtain ⟨key, s⟩ := entry
      rcases bind_eq_error_iff.1 h with h | ⟨-, -, h⟩
      · unfold checkSubset at h
        split at h
        next hne =>
          cases h
          exact .inl ⟨⟨(key, s), List.mem_cons_self, hne⟩, _, rfl⟩
        next =>
          split at h
          · cases h
            exact .inr ⟨_, _, rfl⟩
          · cases h
      · rcases ih h with ⟨⟨entry, hentry, hne⟩, hr⟩ | hr
        · exact .inl ⟨⟨entry, List.mem_cons_of_mem _ hentry, hne⟩, hr⟩
        · exact .inr hr

theorem exists_fieldsNamed_iff :
    (∃ fs, c.fieldsNamed names = .ok fs) ↔ ∀ name ∈ names, name ∈ c.fieldNames := by
  induction names with
  | nil => simp [fieldsNamed]
  | cons name names ih =>
      rw [List.forall_mem_cons, ← ih, ← isSome_field?_iff, fieldsNamed]
      cases c.field? name <;> simp

theorem exists_selectedFields_iff :
    (∃ fs, c.selectedFields names = .ok fs) ↔ ¬c.MissesField names := by
  simp only [MissesField, not_exists, not_and, not_not, ← exists_fieldsNamed_iff]
  unfold selectedFields
  split
  next hn => simp [hn, fieldsNamed]
  next => exact Iff.rfl

theorem isInvalid_of_selectedFields {r : SelectionRefusal}
    (h : c.selectedFields names = .error r) : r.fault.IsInvalid := by
  have hfields (names : List String) (h : c.fieldsNamed names = .error r) :
      r.fault.IsInvalid := by
    induction names with
    | nil => cases h
    | cons name names ih =>
        unfold fieldsNamed at h
        split at h
        · exact ih (map_eq_error_iff.1 h)
        · cases h
          exact ⟨_, _, rfl⟩
  unfold selectedFields at h
  split at h
  · cases h
  · exact hfields names h

theorem exists_conditionOf_iff :
    (∃ o, conditionOf subsets a = .ok o) ↔
      ¬(a.role = some .time ∧ ∃ s, subsets.get? a.name = some s ∧ s.byValue = true ∧
        ∃ b ∈ s.selection.bounds, ¬Subset.IsTimeBound b) := by
  unfold conditionOf
  cases hget : subsets.get? a.name with
  | none => simp
  | some s =>
      by_cases hp : s.byPosition = true
      · simp [hp, Subset.byValue]
      · by_cases ht : a.role = some .time
        · have htime : a.isTime = true := by simp [Coordinate.isTime, ht]
          simp [hp, htime, ht, Subset.byValue, Subset.exists_timeCondition_iff]
        · have htime : a.isTime = false := by simp [Coordinate.isTime, ht]
          simp [hp, htime, ht]

theorem isInvalid_of_conditions {axes : List Coordinate} (h : conditions subsets axes = .error e) :
    e.IsInvalid := by
  induction axes with
  | nil => cases h
  | cons a axes ih =>
      rcases bind_eq_error_iff.1 h with h | ⟨o, -, h⟩
      · unfold conditionOf at h
        split at h
        · cases h
        · split at h
          · cases h
          · split at h
            · exact Subset.isInvalid_of_timeCondition (map_eq_error_iff.1 h)
            · cases h
      · rcases bind_eq_error_iff.1 h with h | ⟨texts, -, h⟩
        · exact ih h
        · cases h

theorem exists_conditions_iff {axes : List Coordinate} :
    (∃ texts, conditions subsets axes = .ok texts) ↔
      ∀ a ∈ axes, ∃ o, conditionOf subsets a = .ok o := by
  induction axes with
  | nil => simp [conditions]
  | cons a axes ih =>
      rw [List.forall_mem_cons, ← ih, conditions]
      exact exists_bind_iff fun _ _ => exists_bind_pure_iff

theorem exists_clause_iff :
    (∃ clause, c.clause subsets f = .ok clause) ↔ ¬c.HasIllegibleTime subsets := by
  rw [clause, exists_bind_pure_iff, exists_conditions_iff]
  simp only [exists_conditionOf_iff, HasIllegibleTime, not_exists, not_and]

/-- A field has a text exactly if every time bound can be read and the scaling, if there is one, finds
its axes. -/
theorem exists_fieldText_iff :
    (∃ text, c.fieldText subsets scaling f = .ok text) ↔
      ¬c.HasIllegibleTime subsets ∧ ¬c.LacksGrid scaling ∧ ¬c.MissesScaledAxis scaling := by
  rw [← exists_clause_iff (f := f)]
  refine exists_bind_iff fun clause _ => ?_
  split
  next hactive =>
    simp only [mapError_eq_ok_iff, Scaling.exists_wrap_iff, LacksGrid, MissesScaledAxis, hactive,
      coordinateNames, true_and, Nat.not_lt, not_exists, not_and, Decidable.not_not]
  next hactive => simp [LacksGrid, MissesScaledAxis, hactive, pure_eq_ok_iff]

theorem fieldText_eq_error (h : c.fieldText subsets scaling f = .error e) :
    c.LacksGrid scaling ∧ e.IsInternal ∨ e.IsInvalid := by
  rcases bind_eq_error_iff.1 h with h | ⟨clause, -, h⟩
  · rcases bind_eq_error_iff.1 h with h | ⟨texts, -, h⟩
    · exact .inr (isInvalid_of_conditions h)
    · cases h
  · split at h
    next hactive =>
      obtain ⟨r, hr, rfl⟩ := mapError_eq_error_iff.1 h
      rcases Scaling.wrap_eq_error hr with ⟨hfew, hinternal⟩ | ⟨-, hinvalid⟩
      · exact .inl ⟨⟨hactive, hfew⟩, hinternal⟩
      · exact .inr hinvalid
    next => cases h

theorem exists_fieldTexts_iff {fs : List Field} :
    (∃ texts, c.fieldTexts subsets scaling fs = .ok texts) ↔
      ∀ f ∈ fs, ∃ text, c.fieldText subsets scaling f = .ok text := by
  induction fs with
  | nil => simp [fieldTexts]
  | cons f fs ih =>
      rw [List.forall_mem_cons, ← ih, fieldTexts]
      exact exists_bind_iff fun _ _ => exists_bind_pure_iff

theorem fieldTexts_eq_error {fs : List Field} (h : c.fieldTexts subsets scaling fs = .error e) :
    fs ≠ [] ∧ c.LacksGrid scaling ∧ e.IsInternal ∨ e.IsInvalid := by
  induction fs with
  | nil => cases h
  | cons f fs ih =>
      have hne : f :: fs ≠ [] := List.cons_ne_nil f fs
      rcases bind_eq_error_iff.1 h with h | ⟨text, -, h⟩
      · exact (fieldText_eq_error h).imp_left fun h => ⟨hne, h⟩
      · rcases bind_eq_error_iff.1 h with h | ⟨texts, -, h⟩
        · exact (ih h).imp_left fun h => ⟨hne, h.2⟩
        · cases h

theorem Selects.ne_nil_iff {fs : List Field} (h : c.Selects names fs) :
    fs ≠ [] ↔ c.SelectsField names := by
  unfold SelectsField
  by_cases hn : names = []
  · simp [h.1 hn, hn]
  · have hfs := h.2 hn
    simp only [hn, ne_eq, not_false_eq_true, true_or, iff_true]
    rintro rfl
    exact hn (List.map_eq_nil_iff.1 hfs)

theorem exists_checkSubsets_iff :
    (∃ u, c.checkSubsets subsets.entries = .ok u) ↔
      ¬Misfiles subsets ∧ ¬c.MissesAxis subsets := by
  have hunit : (∃ u, c.checkSubsets subsets.entries = .ok u) ↔
      c.checkSubsets subsets.entries = .ok () := by
    constructor
    · rintro ⟨⟨⟩, h⟩
      exact h
    · exact fun h => ⟨(), h⟩
  simp only [hunit, checkSubsets_eq_ok_iff, isSome_coordinate?_iff, Misfiles, MissesAxis,
    not_exists, not_and, not_not]
  exact forall₂_and

/-- A selection has an expression exactly if its subsets are filed under their own dimensions, those
are axes, and its fields are there; and if a field is selected, every time bound can be read and the
scaling, if there is one, finds its axes. -/
theorem exists_expression_iff :
    (∃ text, c.expression names subsets scaling = .ok text) ↔
      ¬Misfiles subsets ∧ ¬c.MissesAxis subsets ∧ ¬c.MissesField names ∧
        (c.SelectsField names → ¬c.HasIllegibleTime subsets ∧ ¬c.LacksGrid scaling ∧
          ¬c.MissesScaledAxis scaling) := by
  rw [← and_assoc, ← exists_checkSubsets_iff, ← exists_selectedFields_iff]
  simp only [← mapError_eq_ok_iff (f := SelectionRefusal.fault)]
  refine exists_bind_iff fun _ _ => exists_bind_iff fun fs hfs => ?_
  have hselects := selectedFields_eq_ok_iff.1 (mapError_eq_ok_iff.1 hfs)
  rw [exists_bind_pure_iff, exists_fieldTexts_iff, ← hselects.ne_nil_iff]
  simp only [exists_fieldText_iff]
  constructor
  · intro h hne
    obtain ⟨f, hf⟩ := List.exists_mem_of_ne_nil fs hne
    exact h f hf
  · intro h f hf
    exact h (List.ne_nil_of_mem hf)

/-- The fault of a selection that has no expression. -/
theorem expression_eq_error (h : c.expression names subsets scaling = .error e) :
    (Misfiles subsets ∨ c.SelectsField names ∧ c.LacksGrid scaling) ∧ e.IsInternal ∨
      e.IsInvalid := by
  rcases bind_eq_error_iff.1 h with h | ⟨-, -, h⟩
  · obtain ⟨r, hr, rfl⟩ := mapError_eq_error_iff.1 h
    exact (checkSubsets_eq_error hr).imp_left fun h => ⟨.inl h.1, h.2⟩
  · rcases bind_eq_error_iff.1 h with h | ⟨fs, hfs, h⟩
    · obtain ⟨r, hr, rfl⟩ := mapError_eq_error_iff.1 h
      exact .inr (isInvalid_of_selectedFields hr)
    · have hselects := (selectedFields_eq_ok_iff.1 (mapError_eq_ok_iff.1 hfs)).ne_nil_iff
      rcases bind_eq_error_iff.1 h with h | ⟨texts, -, h⟩
      · refine (fieldTexts_eq_error h).imp_left fun h => ?_
        exact ⟨.inr ⟨hselects.1 h.1, h.2.1⟩, h.2.2⟩
      · cases h

end Coverage

namespace Request

variable {r : Request} {q : Query} {root : Markup.Element}

theorem not_misfiles_of_enterAll {α : Type} {read : α → Except Subset.Refusal Subset} {l : List α}
    {t : Table Subset} (h : enterAll read ∅ l = .ok t) : ¬Coverage.Misfiles t := by
  rintro ⟨e, he, hne⟩
  rcases exists_of_mem_entries h he with he | ⟨hkey, -⟩
  · cases he
  · exact hne hkey

theorem not_misfiles_of_ofQuery (h : ofQuery q = .ok r) : ¬Coverage.Misfiles r.subsets :=
  not_misfiles_of_enterAll (ofQuery_eq_ok_iff.1 h).subsets

theorem not_misfiles_of_ofElement (h : ofElement root = .ok r) : ¬Coverage.Misfiles r.subsets :=
  not_misfiles_of_enterAll (ofElement_eq_ok_iff.1 h).subsets

end Request

namespace Coverage

variable {c : Coverage} {names : List String} {subsets : Table Subset} {scaling : Scaling}

/-- What hinders an expression. Time bounds and the scaling count only if a field is selected. -/
def IsHindered (c : Coverage) (names : List String) (subsets : Table Subset)
    (scaling : Scaling) : Prop :=
  Misfiles subsets ∨ c.MissesAxis subsets ∨ c.MissesField names ∨
    c.SelectsField names ∧
      (c.HasIllegibleTime subsets ∨ c.LacksGrid scaling ∨ c.MissesScaledAxis scaling)

theorem exists_expression_error_iff :
    (∃ e, c.expression names subsets scaling = .error e) ↔ c.IsHindered names subsets scaling := by
  rw [exists_error_iff, exists_expression_iff, IsHindered]
  simp only [not_and_or, not_not, Classical.not_imp]

/-- There is no expression, and no constraint, exactly if something hinders it. The fault lies with
the service only if a subset is misfiled or two axes are lacking, and it is an invalid value
otherwise. A request that has been read misfiles nothing. -/
theorem expression_fails_iff (c : Coverage) (names : List String) (subsets : Table Subset)
    (scaling : Scaling) :
    ((∃ e, c.expression names subsets scaling = .error e) ↔
        c.IsHindered names subsets scaling) ∧
      ((∃ e, c.constraint names subsets scaling = .error e) ↔
        c.IsHindered names subsets scaling) ∧
      (∀ e, c.expression names subsets scaling = .error e ∨
          c.constraint names subsets scaling = .error e →
        (Misfiles subsets ∨ c.SelectsField names ∧ c.LacksGrid scaling) ∧ e.IsInternal ∨
          e.IsInvalid) ∧
      ∀ r : Request,
        (∃ q, Request.ofQuery q = .ok r) ∨ (∃ root, Request.ofElement root = .ok r) →
        ¬Misfiles r.subsets ∧
          ∀ e, c.expression r.fields r.subsets r.scaling = .error e ∨
              c.constraint r.fields r.subsets r.scaling = .error e →
            e.IsInternal → c.SelectsField r.fields ∧ c.LacksGrid r.scaling := by
  have hfault {names : List String} {subsets : Table Subset} {scaling : Scaling} {e : Fault}
      (h : c.expression names subsets scaling = .error e ∨
        c.constraint names subsets scaling = .error e) :
      (Misfiles subsets ∨ c.SelectsField names ∧ c.LacksGrid scaling) ∧ e.IsInternal ∨
        e.IsInvalid := by
    rcases h with h | h
    · exact expression_eq_error h
    · exact expression_eq_error (map_eq_error_iff.1 h)
  refine ⟨exists_expression_error_iff, ?_, fun e => hfault, fun r hr => ?_⟩
  · simp only [constraint, map_eq_error_iff]
    exact exists_expression_error_iff
  · have hfiled : ¬Misfiles r.subsets := by
      rcases hr with ⟨q, hq⟩ | ⟨root, hroot⟩
      · exact Request.not_misfiles_of_ofQuery hq
      · exact Request.not_misfiles_of_ofElement hroot
    refine ⟨hfiled, fun e h hinternal => ?_⟩
    rcases hfault h with ⟨hcause, -⟩ | ⟨locator, text, rfl⟩
    · exact hcause.resolve_left hfiled
    · obtain ⟨_, h⟩ := hinternal
      cases h

/-- A field over one axis. -/
def profile : Coverage :=
  { id := "profile"
    coordinates := [⟨"depth", "z", "m", 40, none⟩]
    fields := [⟨"salinity", "salt", none, none⟩]
    nativeFormat := "netcdf"
    box := none
    datasetUrl := none }

/-- A query for one depth in another reference system. -/
def projected : Query :=
  .ofPairs [("coverageId", "profile"), ("subset", "depth(3)"), ("outputCrs", "EPSG:4326")]

/-- What the query asks for. -/
def projectedRequest : Request :=
  { coverageId := "profile"
    format := none
    mediaType := none
    fields := []
    subsets := .ofList [("depth", ⟨"depth", .slice "3", true⟩)]
    scaling := ⟨none, some "EPSG:4326", none⟩ }

theorem profile_expression_fails :
    Request.ofQuery projected = .ok projectedRequest ∧ ¬Misfiles projectedRequest.subsets ∧
      ∃ e, profile.expression projectedRequest.fields projectedRequest.subsets
          projectedRequest.scaling = .error e ∧ e.IsInternal ∧
        profile.SelectsField projectedRequest.fields ∧
          profile.LacksGrid projectedRequest.scaling := by
  have hread : Request.ofQuery projected = .ok projectedRequest := by rfl
  have hlacks : profile.LacksGrid projectedRequest.scaling := ⟨rfl, by decide⟩
  have hselects : profile.SelectsField projectedRequest.fields := .inr (by decide)
  obtain ⟨hfails, -, -, hrequests⟩ := expression_fails_iff profile projectedRequest.fields
    projectedRequest.subsets projectedRequest.scaling
  obtain ⟨hfiled, hinternal⟩ := hrequests projectedRequest (.inl ⟨projected, hread⟩)
  obtain ⟨e, he⟩ := hfails.2 (.inr (.inr (.inr ⟨hselects, .inr (.inl hlacks)⟩)))
  have heq : e = .internal "Scaling needs at least two domain coordinates, coverage has 1" := by
    have hexpression : profile.expression projectedRequest.fields projectedRequest.subsets
        projectedRequest.scaling =
          .error (.internal "Scaling needs at least two domain coordinates, coverage has 1") := by
      rfl
    exact Except.error.inj (he.symm.trans hexpression)
  have hservice : e.IsInternal := ⟨_, heq⟩
  exact ⟨hread, hfiled, e, he, hservice, hinternal e (.inl he) hservice⟩

end Coverage

end CoverageAccess
