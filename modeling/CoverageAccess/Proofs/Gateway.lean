import CoverageAccess.Gateway
import CoverageAccess.Proofs.Constraint.Failure
import CoverageAccess.Proofs.Request.Query
import CoverageAccess.Proofs.Request.Reread
import Mathlib.Data.List.Dedup
/-!
# Queries and documents

A request that has been read from a query can be sent as a document. The two have the same outcome
with every catalog exactly if the request is settled, or if its document can be read and its format
is none (`sameOutcome_iff`). A request that is not settled is told apart by a catalog with a
`fitting` coverage: one that has all that the request names, on axes that do not count time.
-/

namespace CoverageAccess

theorem Format.ofText_trim (s : String) : ofText (Text.trim s) = ofText s := by
  simp only [ofText, ofText?, unknown, Text.trim_trim]

/-- The same access, or faults of the same kind. -/
inductive SameOutcome : Except Fault Access → Except Fault Access → Prop
  | ok (a : Access) : SameOutcome (.ok a) (.ok a)
  | error {e e' : Fault} (h : e.code = e'.code) : SameOutcome (.error e) (.error e')

theorem SameOutcome.eq_ok {x : Except Fault Access} {a : Access} (h : SameOutcome x (.ok a)) :
    x = .ok a := by
  cases h
  rfl

theorem sameOutcome_refl (x : Except Fault Access) : SameOutcome x x := by
  cases x with
  | error e => exact .error rfl
  | ok a => exact .ok a

namespace Request

variable {r t : Request} {q : String}

/-- The request names a format that there is not. -/
def Unencodable (r : Request) : Prop :=
  ∃ f ∈ r.format, Format.ofText? f = none

theorem responseFormat_trim (r : Request) (native : String) :
    Format.ofText ((r.format.map Text.trim).getD native) = r.responseFormat native := by
  rw [responseFormat]
  cases r.format with
  | none => rfl
  | some f => exact Format.ofText_trim f

theorem Unencodable.responseFormat_eq (h : r.Unencodable) (native : String) :
    ∃ e, r.responseFormat native = .error e := by
  obtain ⟨f, hf, hnone⟩ := h
  refine ⟨Format.unknown f, ?_⟩
  rw [responseFormat, hf, Option.getD_some, Format.ofText, hnone]

theorem exists_responseFormat (h : ¬r.Unencodable) {native : String}
    (hnative : (Format.ofText? native).isSome) : ∃ f, r.responseFormat native = .ok f := by
  have hsome : (Format.ofText? (r.format.getD native)).isSome := by
    cases hf : r.format with
    | none => exact hnative
    | some f =>
        rw [Option.getD_some, Option.isSome_iff_ne_none]
        exact fun hnone => h ⟨f, hf, hnone⟩
  obtain ⟨f, hf⟩ := Option.isSome_iff_exists.1 hsome
  exact ⟨f, by rw [responseFormat, Format.ofText, hf]⟩

/-- A subset that is refused is not a coverage that is not found. -/
theorem code_ne_of_enterAll {α : Type} {read : α → Except Subset.Refusal Subset}
    {subsets : Table Subset} {l : List α} {e : Fault} (h : enterAll read subsets l = .error e) :
    e.code ≠ "NoSuchCoverage" := by
  have hmissing : "MissingParameterValue" ≠ "NoSuchCoverage" := by decide
  have hinvalid : "InvalidParameterValue" ≠ "NoSuchCoverage" := by decide
  induction l generalizing subsets with
  | nil => cases h
  | cons a l ih =>
      rw [enterAll] at h
      cases ha : read a with
      | error cause =>
          rw [ha] at h
          cases h
          cases cause <;> first | exact hinvalid | exact hmissing
      | ok s =>
          rw [ha] at h
          cases hs : enter subsets s with
          | error cause =>
              have hcause : cause = .repeatedDimension s.dimension := by
                unfold enter at hs
                split at hs <;> cases hs
                rfl
              simp only [mapError_ok, ok_bind, hs, hcause, mapError_error, error_bind] at h
              cases h
              exact hinvalid
          | ok subsets' =>
              simp only [mapError_ok, ok_bind, hs] at h
              exact ih h

/-- The document of a settled request is read as that request, up to blanks around its format. -/
theorem parseDocument_of_settled (h : parseQuery q = .ok r) (hs : r.Settled) :
    parseDocument r.document = .ok { r with format := r.format.map Text.trim } := by
  obtain ⟨hr, hinferred⟩ := expressible_of_parseQuery h
  rw [parseDocument_document hr, enterAll_reread hr hs hinferred, ok_bind, hs.reread_scaling]

theorem parseDocument_eq_ok (h : parseQuery q = .ok r) (ht : parseDocument r.document = .ok t) :
    ∃ subsets, enterAll Subset.reread ∅ r.subsets.values = .ok subsets ∧
      t = { r with format := r.format.map Text.trim, subsets, scaling := r.scaling.reread } := by
  obtain ⟨hr, -⟩ := expressible_of_parseQuery h
  rw [parseDocument_document hr] at ht
  obtain ⟨subsets, hsubsets, ht⟩ := bind_eq_ok_iff.1 ht
  exact ⟨subsets, hsubsets, (Except.ok.inj ht).symm⟩

/-- A document that cannot be read is not refused for a coverage that is not found. -/
theorem code_ne_of_parseDocument {e : Fault} (h : parseQuery q = .ok r)
    (he : parseDocument r.document = .error e) : e.code ≠ "NoSuchCoverage" := by
  obtain ⟨hr, -⟩ := expressible_of_parseQuery h
  rw [parseDocument_document hr] at he
  cases hsubsets : enterAll Subset.reread ∅ r.subsets.values with
  | ok subsets =>
      rw [hsubsets] at he
      cases he
  | error e' =>
      rw [hsubsets] at he
      cases he
      exact code_ne_of_enterAll hsubsets

section Fitting

/-- A coverage that has all that the request names, on at least two axes. -/
def fitting (r : Request) : Coverage :=
  { id := r.coverageId
    coordinates := (r.subsets.names ++ r.scaling.axes ++ ["latitude", "longitude"]).dedup.map
      fun name => ⟨name, "axis", "", 1, none⟩
    fields := (if r.fields = [] then ["field"] else r.fields).dedup.map
      fun name => ⟨name, "field", none, none⟩
    nativeFormat := "netcdf"
    box := none
    datasetUrl := some "http://localhost/" }

theorem isTime_of_mem_fitting {a : Coordinate} (ha : a ∈ r.fitting.coordinates) :
    a.isTime = false := by
  obtain ⟨name, -, rfl⟩ := List.mem_map.1 ha
  rfl

theorem variableId_of_mem_fitting {f : Field} (hf : f ∈ r.fitting.fields) :
    f.variableId = "field" := by
  obtain ⟨name, -, rfl⟩ := List.mem_map.1 hf
  rfl

theorem fields_fitting_ne_nil (r : Request) : r.fitting.fields ≠ [] := by
  rw [fitting, ne_eq, List.map_eq_nil_iff, List.dedup_eq_nil]
  split
  · exact List.cons_ne_nil _ _
  next h => exact h

theorem legible_fitting (r : Request) {subsets : Table Subset}
    (hs : ∀ e ∈ subsets.entries, e.2.Constructed) : r.fitting.Legible subsets := by
  have hfield : Nesting.IsPlainName "field" := by decide
  have haxis : Nesting.IsPlainName "axis" := by decide
  refine ⟨fun f hf => ?_, fun a ha => ?_, hs⟩
  · obtain ⟨name, -, rfl⟩ := List.mem_map.1 hf
    exact hfield
  · obtain ⟨name, -, rfl⟩ := List.mem_map.1 ha
    exact haxis

theorem isSome_coordinate?_fitting {name : String}
    (h : name ∈ r.subsets.names ++ r.scaling.axes ++ ["latitude", "longitude"]) :
    (r.fitting.coordinate? name).isSome := by
  rw [Coverage.coordinate?, List.find?_isSome]
  exact ⟨_, List.mem_map_of_mem (List.mem_dedup.2 h), beq_self_eq_true _⟩

theorem isSome_field?_fitting {name : String} (h : name ∈ r.fields) :
    (r.fitting.field? name).isSome := by
  have hne : r.fields ≠ [] := List.ne_nil_of_mem h
  rw [Coverage.field?, List.find?_isSome]
  refine ⟨⟨name, "field", none, none⟩, List.mem_map_of_mem (List.mem_dedup.2 ?_),
    beq_self_eq_true _⟩
  rwa [if_neg hne]

theorem checkSubsets_fitting (hr : r.Expressible) :
    r.fitting.checkSubsets r.subsets.entries = .ok () := by
  refine Coverage.checkSubsets_eq_ok_iff.2 fun e he => ⟨(hr.subsets e he).1, ?_⟩
  refine isSome_coordinate?_fitting (List.mem_append_left _ (List.mem_append_left _ ?_))
  exact List.mem_map_of_mem he

theorem two_le_length_fitting (r : Request) : 2 ≤ r.fitting.coordinates.length := by
  have hnodup : ["latitude", "longitude"].Nodup := by decide
  have hsubset : ["latitude", "longitude"] ⊆
      (r.subsets.names ++ r.scaling.axes ++ ["latitude", "longitude"]).dedup :=
    fun name h => List.mem_dedup.2 (List.mem_append_right _ h)
  have hle := (List.subperm_of_subset hnodup hsubset).length_le
  rw [fitting, List.length_map]
  exact hle

theorem exists_expression_fitting (hr : r.Expressible) :
    ∃ text, r.fitting.expression r.fields r.subsets r.scaling = .ok text := by
  have haxis {name : String}
      (h : name ∈ r.subsets.names ++ r.scaling.axes ++ ["latitude", "longitude"]) :
      name ∈ r.fitting.coordinateNames :=
    Coverage.isSome_coordinate?_iff.1 (isSome_coordinate?_fitting h)
  refine Coverage.exists_expression_iff.2 ⟨?_, ?_, ?_, fun _ => ⟨?_, ?_, ?_⟩⟩
  · rintro ⟨e, he, hne⟩
    exact hne (hr.subsets e he).1
  · rintro ⟨e, he, hmissing⟩
    exact hmissing (haxis (List.mem_append_left _ (List.mem_append_left _
      (List.mem_map_of_mem he))))
  · rintro ⟨name, hname, hmissing⟩
    exact hmissing (Coverage.isSome_field?_iff.1 (isSome_field?_fitting hname))
  · rintro ⟨a, ha, htime, -⟩
    have hnot := isTime_of_mem_fitting ha
    simp [Coordinate.isTime, htime] at hnot
  · rintro ⟨-, hfew⟩
    exact Nat.not_le_of_lt hfew (two_le_length_fitting r)
  · rintro ⟨-, axis, hmem, hmissing⟩
    exact hmissing (haxis (List.mem_append_left _ (List.mem_append_right _ hmem)))

/-- A request with the expression of what its document is read as is settled. -/
theorem settled_of_expression_eq {subsets : Table Subset} {text : String} (hr : r.Expressible)
    (hinferred : ∀ s ∈ r.subsets.values, s.Inferred)
    (hsubsets : enterAll Subset.reread ∅ r.subsets.values = .ok subsets)
    (h : r.fitting.expression r.fields r.subsets r.scaling = .ok text)
    (h' : r.fitting.expression r.fields subsets r.scaling.reread = .ok text) : r.Settled := by
  obtain ⟨⟨⟩, -, h⟩ := bind_eq_ok_iff.1 h
  obtain ⟨fs, hfs, h⟩ := bind_eq_ok_iff.1 h
  obtain ⟨texts, htexts, h⟩ := bind_eq_ok_iff.1 h
  obtain ⟨⟨⟩, -, h'⟩ := bind_eq_ok_iff.1 h'
  obtain ⟨fs', hfs', h'⟩ := bind_eq_ok_iff.1 h'
  obtain ⟨texts', htexts', h'⟩ := bind_eq_ok_iff.1 h'
  obtain rfl : fs = fs' := Except.ok.inj (hfs.symm.trans hfs')
  have hselects := Coverage.selectedFields_eq_ok_iff.1 (mapError_eq_ok_iff.1 hfs)
  obtain ⟨f, hf⟩ := List.exists_mem_of_ne_nil fs (hselects.ne_nil (fields_fitting_ne_nil r))
  have hsame : ∀ g ∈ fs, g.variableId = f.variableId := by
    intro g hg
    rw [variableId_of_mem_fitting (hselects.mem g hg), variableId_of_mem_fitting (hselects.mem f hf)]
  obtain ⟨first, hfirst, rfl⟩ := Coverage.fieldTexts_eq_ok_replicate hsame hf htexts
  obtain ⟨first', hfirst', rfl⟩ := Coverage.fieldTexts_eq_ok_replicate hsame hf htexts'
  have hjoin := (pure_eq_ok_iff.1 h).trans (pure_eq_ok_iff.1 h').symm
  obtain rfl := Text.join_replicate_inj (List.length_pos_of_mem hf).ne' hjoin
  have hconstructed : ∀ e ∈ r.subsets.entries, e.2.Constructed :=
    fun e he => .inferred (hinferred e.2 (List.mem_map_of_mem he))
  have hconstructed' : ∀ e ∈ subsets.entries, e.2.Constructed := by
    intro e he
    obtain ⟨s, -, hread⟩ := exists_get?_of_reread hr hsubsets (Table.get?_eq_some_iff.2 he)
    exact .inferred (Subset.reread_eq_ok hread).1
  have hmode : r.scaling.mode = r.scaling.reread.mode := rfl
  obtain ⟨⟨clause, hclause, hclause'⟩, -, htail⟩ := Coverage.clause_eq_of_fieldText_eq
    (legible_fitting r hconstructed) (legible_fitting r hconstructed') (hselects.mem f hf) hmode
    hfirst hfirst'
  have hreread : r.scaling.reread = r.scaling := by
    cases hactive : r.scaling.isActive with
    | false => exact Scaling.reread_eq_self_of_not_isActive hactive
    | true => exact Scaling.reread_eq_self_of_tail_eq (htail hactive)
  obtain ⟨hcrs, hinterpolation⟩ := Scaling.reread_eq_self_iff.1 hreread
  exact ⟨hcrs, hinterpolation, trim_bounds_of_clause_eq hr hinferred hsubsets
    (checkSubsets_fitting hr) (fun a => isTime_of_mem_fitting) hclause hclause'⟩

end Fitting

/-- A request whose format there is not is refused whatever it asks of the coverage. -/
theorem Unencodable.access_eq (h : r.Unencodable) (hformat : t.format = r.format.map Text.trim)
    (c : Coverage) (dataset : String) : t.access c dataset = r.access c dataset := by
  obtain ⟨e, he⟩ := h.responseFormat_eq c.nativeFormat
  have ht : t.responseFormat c.nativeFormat = .error e := by
    rw [← he, ← responseFormat_trim r, responseFormat, hformat]
  rw [access, access, he, ht]
  rfl

theorem access_trim (r : Request) (c : Coverage) (dataset : String) :
    access { r with format := r.format.map Text.trim } c dataset = r.access c dataset := by
  rw [access, access, ← responseFormat_trim r]
  rfl

theorem expression_of_access_eq_ok {c : Coverage} {dataset : String} {a : Access}
    (h : r.access c dataset = .ok a) :
    c.expression r.fields r.subsets r.scaling = .ok a.expression := by
  obtain ⟨f, -, h⟩ := bind_eq_ok_iff.1 h
  obtain ⟨text, htext, h⟩ := bind_eq_ok_iff.1 h
  cases pure_eq_ok_iff.1 h
  exact htext

theorem exists_access_fitting (hr : r.Expressible) (h : ¬r.Unencodable) (dataset : String) :
    ∃ a, r.access r.fitting dataset = .ok a := by
  have hnative : (Format.ofText? r.fitting.nativeFormat).isSome := by
    change (Format.ofText? "netcdf").isSome
    decide
  obtain ⟨f, hf⟩ := exists_responseFormat h hnative
  obtain ⟨text, htext⟩ := exists_expression_fitting hr
  rw [access, hf, ok_bind, htext, ok_bind]
  exact ⟨_, rfl⟩

end Request

namespace Catalog

variable {s : Surroundings} {c : Catalog} {r t : Request} {q : String}

theorem accessFor_ok (s : Surroundings) (c : Catalog) (r : Request) :
    c.accessFor s (.ok r) = c.access s r := rfl

theorem accessFor_error (s : Surroundings) (c : Catalog) (e : Fault) :
    c.accessFor s (.error e) = (.error e, c) := rfl

theorem access_empty (s : Surroundings) (r : Request) :
    ((fixed ⟨∅⟩).access s r).1 = .error (Edition.noCoverage r.coverageId) := rfl

/-- Requests for one coverage that get the same of it have the same outcome. -/
theorem access_congr (hid : t.coverageId = r.coverageId)
    (h : ∀ d dataset, t.access d dataset = r.access d dataset) (s : Surroundings) (c : Catalog) :
    c.access s t = c.access s r := by
  simp only [access, accessBetween, hid, h]

/-- A catalog with one coverage. -/
def single (c : Coverage) : Catalog := .fixed (Fixed.add ⟨∅⟩ c)

/-- In the catalog with the fitting coverage the outcome is what the request gets of it. -/
theorem access_single_fitting (hid : t.coverageId = r.coverageId) (s : Surroundings) :
    ((single r.fitting).access s t).1 = t.access r.fitting "http://localhost/" := by
  have hget : (Fixed.add ⟨∅⟩ r.fitting).coverages.get? r.coverageId = some r.fitting :=
    Table.get?_insert_self _ _ _
  have hcoverage : (Fixed.add ⟨∅⟩ r.fitting).coverage r.coverageId = .ok r.fitting := by
    rw [Fixed.coverage, hget]
  have hdataset : (Fixed.add ⟨∅⟩ r.fitting).datasetUrl r.coverageId = .ok "http://localhost/" := by
    rw [Fixed.datasetUrl, hcoverage]
    rfl
  have hfirst : (single r.fitting).coverage s r.coverageId =
      (.ok r.fitting, single r.fitting) := by
    rw [single, Catalog.coverage, hcoverage]
  have hsecond : (single r.fitting).datasetUrl s r.coverageId =
      (.ok "http://localhost/", single r.fitting) := by
    rw [single, Catalog.datasetUrl, hdataset]
  rw [access, accessBetween, hid, hfirst]
  dsimp only
  rw [hsecond]
  simp only [Except.bind]

/-- The document of a settled request has the outcome of the query, and so has one that can be read
if its format is none. -/
theorem accessOfDocument_eq (h : Request.parseQuery q = .ok r)
    (hr : r.Settled ∨ r.Unencodable ∧ ∃ t, Request.parseDocument r.document = .ok t)
    (s : Surroundings) (c : Catalog) :
    c.accessOfDocument s r.document = c.accessOfQuery s q := by
  rw [accessOfQuery, h, accessFor_ok]
  rcases hr with hs | ⟨hformat, t, ht⟩
  · rw [accessOfDocument, Request.parseDocument_of_settled h hs, accessFor_ok]
    refine access_congr ?_ r.access_trim s c
    rfl
  · rw [accessOfDocument, ht, accessFor_ok]
    obtain ⟨subsets, -, heq⟩ := Request.parseDocument_eq_ok h ht
    have hid : t.coverageId = r.coverageId := by rw [heq]
    exact access_congr hid (hformat.access_eq (by rw [heq])) s c

/-- A query and the document of its request have the same outcome with every catalog exactly if the
request is settled, or if its document can be read and its format is none. -/
theorem sameOutcome_iff (h : Request.parseQuery q = .ok r) :
    (∀ s (c : Catalog), SameOutcome (c.accessOfDocument s r.document).1 (c.accessOfQuery s q).1) ↔
      r.Settled ∨ r.Unencodable ∧ ∃ t, Request.parseDocument r.document = .ok t := by
  constructor
  · intro hsame
    have hsurroundings : Surroundings := ⟨.error .absent, Metadata.offline⟩
    obtain ⟨hr, hinferred⟩ := Request.expressible_of_parseQuery h
    cases ht : Request.parseDocument r.document with
    | error e =>
        -- The empty catalog refuses the query, but for another reason.
        have hempty := hsame hsurroundings (.fixed ⟨∅⟩)
        rw [accessOfQuery, h, accessOfDocument, ht, accessFor_ok, accessFor_error,
          access_empty] at hempty
        cases hempty with
        | error hcode => exact absurd hcode (Request.code_ne_of_parseDocument h ht)
    | ok t =>
        by_cases hformat : r.Unencodable
        · exact .inr ⟨hformat, t, rfl⟩
        · -- The catalog with the fitting coverage gives the expressions of the two.
          obtain ⟨a, ha⟩ := Request.exists_access_fitting hr hformat "http://localhost/"
          obtain ⟨subsets, hsubsets, heq⟩ := Request.parseDocument_eq_ok h ht
          have hid : t.coverageId = r.coverageId := by rw [heq]
          have hfitting := hsame hsurroundings (single r.fitting)
          rw [accessOfQuery, h, accessOfDocument, ht, accessFor_ok, accessFor_ok,
            access_single_fitting hid, access_single_fitting rfl, ha] at hfitting
          have hexpression := Request.expression_of_access_eq_ok hfitting.eq_ok
          rw [heq] at hexpression
          exact .inl (Request.settled_of_expression_eq hr hinferred hsubsets
            (Request.expression_of_access_eq_ok ha) hexpression)
  · intro hr s c
    rw [accessOfDocument_eq h hr]
    exact sameOutcome_refl _

/-- A request whose interpolation method is there, but empty. -/
def emptyMethod : Request where
  coverageId := "dummy/sst.nc"
  format := none
  mediaType := none
  fields := []
  subsets := ∅
  scaling := ⟨none, none, some ""⟩

theorem emptyMethod_not_sameOutcome :
    Request.parseQuery "coverageId=dummy/sst.nc&interpolation=" = .ok emptyMethod ∧
      ¬∀ s (c : Catalog), SameOutcome (c.accessOfDocument s emptyMethod.document).1
        (c.accessOfQuery s "coverageId=dummy/sst.nc&interpolation=").1 := by
  have h : Request.parseQuery "coverageId=dummy/sst.nc&interpolation=" = .ok emptyMethod := by rfl
  refine ⟨h, fun hall => ?_⟩
  rcases (sameOutcome_iff h).1 hall with hsettled | ⟨⟨f, hf, -⟩, -⟩
  · exact (hsettled.interpolation "" rfl).1 rfl
  · cases hf

end Catalog

end CoverageAccess
