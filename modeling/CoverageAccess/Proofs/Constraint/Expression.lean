import CoverageAccess.Proofs.Constraint.Clause
import CoverageAccess.Proofs.Constraint.Reading
import CoverageAccess.Proofs.Subset.Clause
import Mathlib.Tactic.FinCases
/-!
# What an expression says

`Coverage.IsPieceOf` says what a piece of an expression has to hold of a selection: the field's
variable, a bracket for every axis or none at all, the conditions of the axes that are restricted by
value, and the sizes of the last two axes if the scaling is active. The main result,
`Coverage.expression_pieces`, cuts an expression at its outer commas and finds one such piece for
every selected field; as the pieces are readable, no other reading of their texts is possible.
-/

namespace CoverageAccess

open Nesting

namespace Coverage

variable {c : Coverage} {subsets : Table Subset} {scaling : Scaling} {f : Field} {p : Piece}

/-- The axis is restricted by value. -/
def isRestrictedByValue (subsets : Table Subset) (a : Coordinate) : Bool :=
  (subsets.get? a.name).any Subset.byValue

/-- The text is the condition on the axis; on a time coordinate it is one in the units of the axis. -/
def HasCondition (subsets : Table Subset) (a : Coordinate) (text : String) : Prop :=
  ∃ s, subsets.get? a.name = some s ∧
    if a.isTime then s.timeCondition a.units a.variableId = .ok text
    else s.condition a.variableId = text

/-- The piece says of the field what the selection says. -/
structure IsPieceOf (c : Coverage) (subsets : Table Subset) (scaling : Scaling) (f : Field)
    (p : Piece) : Prop where
  target : p.clause.target = f.variableId
  no_brackets : (∀ e ∈ subsets.entries, e.2.byValue = true) → p.clause.brackets = []
  /-- The brackets stand in storage order. -/
  brackets : (∃ e ∈ subsets.entries, e.2.byPosition = true) →
    p.clause.brackets = c.coordinates.map fun a => (bracketOf? subsets a).getD "[*]"
  in_grid : p.clause.conditions ≠ [] ↔ ∃ e ∈ subsets.entries, e.2.byValue = true
  /-- So do the conditions. -/
  conditions : List.Forall₂ (HasCondition subsets)
    (c.coordinates.filter (isRestrictedByValue subsets)) p.clause.conditions
  unscaled : scaling.isActive = false → p.sizes = none
  scaled : scaling.isActive = true → ∃ front y x,
    c.coordinates = front ++ [y, x] ∧ p.sizes = some (scaling.sizeOf y, scaling.sizeOf x)

section Conditions

variable {a : Coordinate}

theorem conditionOf_eq_ok {o : Option String} (h : conditionOf subsets a = .ok o) :
    (isRestrictedByValue subsets a = false ∧ o = none) ∨
      ∃ text, isRestrictedByValue subsets a = true ∧ o = some text ∧
        HasCondition subsets a text := by
  unfold conditionOf at h
  unfold isRestrictedByValue HasCondition
  split at h
  next hget =>
    cases h
    exact .inl ⟨by rw [hget]; rfl, rfl⟩
  next s hget =>
    simp only [hget, Option.any_some, Option.some.injEq, exists_eq_left', Subset.byValue]
    split at h
    next hp =>
      cases h
      exact .inl ⟨by rw [hp]; rfl, rfl⟩
    next hp =>
      have hvalue : (!s.byPosition) = true := by simpa using hp
      split at h
      next ht =>
        obtain ⟨text, htext, rfl⟩ := map_eq_ok_iff.1 h
        exact .inr ⟨text, hvalue, rfl, by rwa [if_pos ht]⟩
      next ht =>
        cases h
        exact .inr ⟨_, hvalue, rfl, by rw [if_neg ht]⟩

/-- The conditions are those of the axes that are restricted by value, in order. -/
theorem hasCondition_of_conditions {axes : List Coordinate} {texts : List String}
    (h : conditions subsets axes = .ok texts) :
    List.Forall₂ (HasCondition subsets) (axes.filter (isRestrictedByValue subsets)) texts := by
  obtain ⟨found, hfound, rfl⟩ := conditions_eq_ok_iff.1 h
  clear h
  induction hfound with
  | nil => exact .nil
  | cons ha _ ih =>
      rcases conditionOf_eq_ok ha with ⟨hr, rfl⟩ | ⟨text, hr, rfl, htext⟩
      · rwa [List.filter_cons_of_neg (by simp [hr]), List.reduceOption_cons_of_none]
      · rw [List.filter_cons_of_pos hr, List.reduceOption_cons_of_some]
        exact .cons htext ih

theorem HasCondition.isQuotation {text : String} (h : HasCondition subsets a text)
    (hs : ∀ e ∈ subsets.entries, e.2.Constructed) (ha : IsPlainName a.variableId) :
    IsQuotation text := by
  obtain ⟨s, hget, h⟩ := h
  have hc : s.Constructed := hs _ (Table.get?_eq_some_iff.1 hget)
  split at h
  · exact hc.isQuotation_time ha.quote h
  · rw [← h]
    exact hc.isQuotation ha.quote

end Conditions

section Axes

theorem exists_coordinate {e : String × Subset} (hchecks : c.checkSubsets subsets.entries = .ok ())
    (he : e ∈ subsets.entries) : ∃ a ∈ c.coordinates, subsets.get? a.name = some e.2 := by
  obtain ⟨-, hsome⟩ := checkSubsets_eq_ok_iff.1 hchecks e he
  obtain ⟨a, ha⟩ := Option.isSome_iff_exists.1 hsome
  have hname : a.name = e.1 := by simpa using List.find?_some ha
  refine ⟨a, List.mem_of_find?_eq_some ha, ?_⟩
  rw [Table.get?_eq_some_iff, hname]
  exact he

theorem brackets_of_forall_byValue (h : ∀ e ∈ subsets.entries, e.2.byValue = true)
    (axes : List Coordinate) : brackets subsets axes = [] := by
  refine brackets_eq_nil fun a _ => ?_
  unfold bracketOf?
  cases hget : subsets.get? a.name with
  | none => rfl
  | some s =>
      have hvalue := h _ (Table.get?_eq_some_iff.1 hget)
      simp only [Subset.byValue, Bool.not_eq_true'] at hvalue
      simp [Subset.bracket?, hvalue]

/-- A subset by position puts a bracket on every axis. -/
theorem brackets_of_exists_byPosition (hchecks : c.checkSubsets subsets.entries = .ok ())
    (h : ∃ e ∈ subsets.entries, e.2.byPosition = true) :
    brackets subsets c.coordinates =
      c.coordinates.map fun a => (bracketOf? subsets a).getD "[*]" := by
  obtain ⟨e, he, hp⟩ := h
  obtain ⟨a, ha, hget⟩ := exists_coordinate hchecks he
  refine brackets_eq_map ha ?_
  simp [bracketOf?, hget, Subset.bracket?, hp]

theorem isBracket_of_mem_brackets {axes : List Coordinate} {text : String}
    (hs : ∀ e ∈ subsets.entries, e.2.Constructed) (h : text ∈ brackets subsets axes) :
    IsBracket text := by
  rcases mem_brackets h with rfl | ⟨e, he, hbracket⟩
  · exact ⟨['*'], by decide, by decide⟩
  · exact (hs e he).isBracket hbracket

/-- Some axis is restricted by value exactly if some subset goes by value. -/
theorem filter_isRestrictedByValue_ne_nil (hchecks : c.checkSubsets subsets.entries = .ok ()) :
    c.coordinates.filter (isRestrictedByValue subsets) ≠ [] ↔
      ∃ e ∈ subsets.entries, e.2.byValue = true := by
  rw [ne_eq, List.filter_eq_nil_iff, not_forall]
  simp only [not_forall, not_not]
  constructor
  · rintro ⟨a, -, ha⟩
    obtain ⟨s, hget, hs⟩ := (Option.any_eq_true _ _).1 ha
    exact ⟨_, Table.get?_eq_some_iff.1 hget, hs⟩
  · rintro ⟨e, he, hvalue⟩
    obtain ⟨a, ha, hget⟩ := exists_coordinate hchecks he
    exact ⟨a, ha, (Option.any_eq_true _ _).2 ⟨e.2, hget, hvalue⟩⟩

end Axes

end Coverage

theorem Scaling.gridAxes?_eq_some {axes : List Coordinate} {y x : Coordinate}
    (h : gridAxes? axes = some (y, x)) : ∃ front, axes = front ++ [y, x] := by
  induction axes with
  | nil => cases h
  | cons a r ih =>
      match r, h with
      | [_], h =>
          cases h
          exact ⟨[], rfl⟩
      | _ :: _ :: _, h =>
          obtain ⟨front, hr⟩ := ih h
          exact ⟨a :: front, by rw [hr, List.cons_append]⟩

/-- What a scaling writes behind the sizes. -/
def Scaling.tail (s : Scaling) : String :=
  Text.join "" ((s.outputCrs.toList ++ s.interpolation.toList).map fun t => "," ++ t)

/-- Resampling puts the clause in a call with two sizes. -/
theorem Scaling.wrap_eq_ok {s : Scaling} {clause text : String} {axes : List Coordinate}
    (h : s.wrap clause axes = .ok text) :
    ∃ front y x, axes = front ++ [y, x] ∧
      text = "scale_grid(" ++ clause ++ "," ++ Number.ofNatural (s.sizeOf y) ++ "," ++
        Number.ofNatural (s.sizeOf x) ++ s.tail ++ ")" := by
  unfold wrap at h
  split at h
  next => cases h
  next y x hgrid =>
    obtain ⟨front, haxes⟩ := gridAxes?_eq_some hgrid
    dsimp only at h
    split at h
    next => cases h
    next =>
      cases h
      exact ⟨front, y, x, haxes, by simp [tail, toString]⟩

theorem Scaling.tail_eq_empty {s : Scaling} (hcrs : s.outputCrs = .none)
    (hinterpolation : s.interpolation = .none) : s.tail = "" := by
  rw [tail, hcrs, hinterpolation]
  rfl

namespace Coverage

variable {c : Coverage} {subsets : Table Subset} {scaling : Scaling} {f : Field} {p : Piece}

/-- What is asked of the names in the coverage and of the subsets: the backend names are plain, and a
constructor made the subsets. -/
structure Legible (c : Coverage) (subsets : Table Subset) : Prop where
  fields : ∀ f ∈ c.fields, IsPlainName f.variableId
  coordinates : ∀ a ∈ c.coordinates, IsPlainName a.variableId
  subsets : ∀ e ∈ subsets.entries, e.2.Constructed

theorem clause_readable {clause : Clause} (hc : c.Legible subsets) (hf : f ∈ c.fields)
    (h : c.clause subsets f = .ok clause) : clause.Readable := by
  obtain ⟨texts, htexts, h⟩ := bind_eq_ok_iff.1 h
  rw [← pure_eq_ok_iff.1 h]
  refine ⟨hc.fields f hf, fun b hb => isBracket_of_mem_brackets hc.subsets hb, fun t ht => ?_⟩
  obtain ⟨a, ha, hcondition⟩ :=
    exists_of_mem_of_forall₂ (hasCondition_of_conditions htexts) ht
  exact hcondition.isQuotation hc.subsets (hc.coordinates a (List.mem_of_mem_filter ha))

/-- The clause of a field, with sizes or without, is a piece of the field. -/
theorem isPieceOf_clause {clause : Clause} {sizes : Option (Nat × Nat)}
    (hchecks : c.checkSubsets subsets.entries = .ok ()) (h : c.clause subsets f = .ok clause)
    (hunscaled : scaling.isActive = false → sizes = none)
    (hscaled : scaling.isActive = true → ∃ front y x,
      c.coordinates = front ++ [y, x] ∧ sizes = some (scaling.sizeOf y, scaling.sizeOf x)) :
    c.IsPieceOf subsets scaling f ⟨clause, sizes⟩ := by
  obtain ⟨texts, htexts, h⟩ := bind_eq_ok_iff.1 h
  rw [← pure_eq_ok_iff.1 h]
  have hconditions := hasCondition_of_conditions htexts
  exact {
    target := rfl
    no_brackets := fun hvalue => brackets_of_forall_byValue hvalue _
    brackets := brackets_of_exists_byPosition hchecks
    in_grid := by
      rw [← filter_isRestrictedByValue_ne_nil hchecks, ne_eq, ne_eq,
        ← List.length_eq_zero_iff, ← List.length_eq_zero_iff, hconditions.length_eq]
    conditions := hconditions
    unscaled := hunscaled
    scaled := hscaled }

/-- The text of a field is that of its clause, or a call with the clause and what follows. -/
theorem fieldText_eq_ok_or {text : String} (h : c.fieldText subsets scaling f = .ok text) :
    ∃ clause, c.clause subsets f = .ok clause ∧
      ((scaling.isActive = false ∧ text = clause.render) ∨
        scaling.isActive = true ∧ ∃ front y x, c.coordinates = front ++ [y, x] ∧
          text = "scale_grid(" ++ clause.render ++ "," ++ Number.ofNatural (scaling.sizeOf y) ++
            "," ++ Number.ofNatural (scaling.sizeOf x) ++ scaling.tail ++ ")") := by
  obtain ⟨clause, hclause, h⟩ := bind_eq_ok_iff.1 h
  refine ⟨clause, hclause, ?_⟩
  split at h
  next hactive => exact .inr ⟨hactive, Scaling.wrap_eq_ok (mapError_eq_ok_iff.1 h)⟩
  next hactive => exact .inl ⟨by simpa using hactive, (pure_eq_ok_iff.1 h).symm⟩

theorem fieldText_eq_ok {text : String} (hc : c.Legible subsets)
    (hchecks : c.checkSubsets subsets.entries = .ok ()) (hcrs : scaling.outputCrs = none)
    (hinterpolation : scaling.interpolation = none) (hf : f ∈ c.fields)
    (h : c.fieldText subsets scaling f = .ok text) :
    ∃ p : Piece, c.IsPieceOf subsets scaling f p ∧ p.clause.Readable ∧ text = p.render := by
  obtain ⟨clause, hclause, htext⟩ := fieldText_eq_ok_or h
  have hreadable := clause_readable hc hf hclause
  rcases htext with ⟨hactive, rfl⟩ | ⟨hactive, front, y, x, haxes, rfl⟩
  · refine ⟨⟨clause, none⟩, isPieceOf_clause hchecks hclause (fun _ => rfl) ?_, hreadable, rfl⟩
    simp [hactive]
  · refine ⟨_, isPieceOf_clause hchecks hclause ?_ fun _ => ⟨front, y, x, haxes, rfl⟩,
      hreadable, ?_⟩
    · simp [hactive]
    · simp [Piece.render, toString, Scaling.tail_eq_empty hcrs hinterpolation]

/-- The texts of some fields are those of readable pieces, one for each field. -/
theorem fieldTexts_eq_ok {fs : List Field} {texts : List String} (hc : c.Legible subsets)
    (hchecks : c.checkSubsets subsets.entries = .ok ()) (hcrs : scaling.outputCrs = none)
    (hinterpolation : scaling.interpolation = none) (hfs : ∀ f ∈ fs, f ∈ c.fields)
    (h : c.fieldTexts subsets scaling fs = .ok texts) :
    ∃ ps : List Piece, texts = ps.map Piece.render ∧
      List.Forall₂ (fun f p => c.IsPieceOf subsets scaling f p ∧ p.clause.Readable) fs ps := by
  induction fs generalizing texts with
  | nil =>
      cases h
      exact ⟨[], rfl, .nil⟩
  | cons f fs ih =>
      obtain ⟨text, htext, h⟩ := bind_eq_ok_iff.1 h
      obtain ⟨rest, hrest, h⟩ := bind_eq_ok_iff.1 h
      obtain ⟨p, hpiece, hreadable, rfl⟩ :=
        fieldText_eq_ok hc hchecks hcrs hinterpolation (hfs f List.mem_cons_self) htext
      obtain ⟨ps, rfl, hps⟩ := ih (fun g hg => hfs g (List.mem_cons_of_mem _ hg)) hrest
      exact ⟨p :: ps, (pure_eq_ok_iff.1 h).symm, .cons ⟨hpiece, hreadable⟩ hps⟩

/-- An expression is cut at its outer commas into one piece for every selected field, in the order of
the selection. Each piece says of its field what the selection says, and its text can be read in no
other way. -/
theorem expression_pieces {names : List String} {text : String} (hfields : c.fields ≠ [])
    (hc : c.Legible subsets) (hcrs : scaling.outputCrs = none)
    (hinterpolation : scaling.interpolation = none)
    (h : c.expression names subsets scaling = .ok text) :
    ∃ fs ps, c.Selects names fs ∧
      (pieces outer text.toList).map String.ofList = ps.map Piece.render ∧
      List.Forall₂ (fun f p => c.IsPieceOf subsets scaling f p ∧ p.clause.Readable ∧
        ∀ q : Piece, q.clause.Readable → q.render = p.render → q = p) fs ps := by
  obtain ⟨⟨⟩, hchecks, h⟩ := bind_eq_ok_iff.1 h
  obtain ⟨fs, hfs, h⟩ := bind_eq_ok_iff.1 h
  obtain ⟨texts, htexts, h⟩ := bind_eq_ok_iff.1 h
  have hselects : c.Selects names fs := selectedFields_eq_ok_iff.1 (mapError_eq_ok_iff.1 hfs)
  obtain ⟨ps, rfl, hps⟩ := fieldTexts_eq_ok hc (mapError_eq_ok_iff.1 hchecks) hcrs hinterpolation
    hselects.mem htexts
  have hne : ps ≠ [] := by
    intro hnil
    have hlength := hps.length_eq
    rw [hnil, List.length_nil, List.length_eq_zero_iff] at hlength
    exact hselects.ne_nil hfields hlength
  have hreadable : ∀ p ∈ ps, p.clause.Readable := by
    intro p hp
    obtain ⟨f, -, -, hr⟩ := exists_of_mem_of_forall₂ hps hp
    exact hr
  refine ⟨fs, ps, hselects, ?_, hps.imp fun f p hp => ⟨hp.1, hp.2, fun q hq he => ?_⟩⟩
  · rw [← pure_eq_ok_iff.1 h]
    exact Piece.pieces_join_render hne hreadable
  · exact Piece.eq_of_render_eq hq hp.2 he

/-- A grid of two fields over time, latitude and longitude. -/
def weeklyGrid : Coverage :=
  { id := "weekly"
    coordinates := [⟨"time", "t", "hours since 1900-01-01", 52, some .time⟩,
      ⟨"latitude", "lat", "degrees_north", 180, some .latitude⟩,
      ⟨"longitude", "lon", "degrees_east", 360, some .longitude⟩]
    fields := [⟨"temperature", "sst", none, none⟩, ⟨"mask", "flags", none, none⟩]
    nativeFormat := "application/x-netcdf"
    box := none
    datasetUrl := none }

/-- Subsets of all kinds: a time, positions, and values with the characters that nest. -/
def weeklySubsets : Table Subset :=
  .ofList [("longitude", ⟨"longitude", .trim "1),[" "(5,", false⟩),
    ("latitude", ⟨"latitude", .trim "*" "90", true⟩),
    ("time", ⟨"time", .slice "2010-01-01", false⟩)]

/-- New sizes for two axes. -/
def weeklyScaling : Scaling := ⟨some (.toSize [("longitude", 36), ("latitude", 18)]), none, none⟩

/-- The expression of the mask and the temperature. -/
def weeklyExpression : String :=
  let selection := "[*][0:1:90][*],\"t=964248\",\"1),[<=lon<=(5,\"),18,36)"
  "scale_grid(grid(flags" ++ selection ++ ",scale_grid(grid(sst" ++ selection

theorem weekly_expression_pieces :
    weeklyGrid.fields ≠ [] ∧ weeklyGrid.Legible weeklySubsets ∧
      weeklyGrid.expression ["mask", "temperature"] weeklySubsets weeklyScaling =
        .ok weeklyExpression ∧
      ∃ fs ps, weeklyGrid.Selects ["mask", "temperature"] fs ∧
        (pieces outer weeklyExpression.toList).map String.ofList = ps.map Piece.render ∧
        List.Forall₂ (fun f p => weeklyGrid.IsPieceOf weeklySubsets weeklyScaling f p ∧
          p.clause.Readable ∧
          ∀ q : Piece, q.clause.Readable → q.render = p.render → q = p) fs ps := by
  have hfields : weeklyGrid.fields ≠ [] := by decide
  have hlegible : weeklyGrid.Legible weeklySubsets := by
    refine ⟨by decide, by decide, ?_⟩
    have htime : Subset.slice "time" "2010-01-01" =
        .ok ⟨"time", .slice "2010-01-01", false⟩ := by rfl
    have hlatitude : Subset.trim "latitude" "*" "90" =
        .ok ⟨"latitude", .trim "*" "90", true⟩ := by rfl
    have hlongitude : Subset.valueTrim "longitude" "1),[" "(5," =
        .ok ⟨"longitude", .trim "1),[" "(5,", false⟩ := by rfl
    intro e he
    fin_cases he
    · exact .inferred (.trim hlatitude)
    · exact .valueTrim hlongitude
    · exact .inferred (.slice htime)
  have hexpression : weeklyGrid.expression ["mask", "temperature"] weeklySubsets weeklyScaling =
      .ok weeklyExpression := by rfl
  exact ⟨hfields, hlegible, hexpression, expression_pieces hfields hlegible rfl rfl hexpression⟩

end Coverage

end CoverageAccess
