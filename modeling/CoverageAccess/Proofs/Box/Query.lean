import CoverageAccess.Box.Query
import CoverageAccess.Proofs.Box.Constructed
import CoverageAccess.Proofs.Number.Integer
import CoverageAccess.Proofs.Text.Split
/-!
# Boxes read from queries

A text is cut at its commas into parts, which are trimmed. It holds a box exactly if its parts are
numbers in an even count, or such numbers and one further part that is none, the reference system. In
both cases the first half of the numbers are the lower bounds and the second half the upper ones
(`GivenBy`); the axes have numbers for names, so no name is repeated, and can be given any other names
that differ (`ofQuery_reads`).
-/

namespace CoverageAccess

namespace Box

variable {s : String} {ps labels : List String} {xs : List Float} {b : Box} {crs : Option String}

/-- The parts of a text between its commas, trimmed. -/
def partsOf (s : String) : List String :=
  (Text.fields ',' s).map Text.trim

def IsNumber (p : String) : Prop :=
  ∃ x, Number.real? p = some x

/-- The parts are numbers in an even count, or at least two numbers in an even count with a part that
is no number after them. -/
def HoldCorners (parts : List String) : Prop :=
  (parts.length % 2 = 0 ∧ ∀ p ∈ parts, IsNumber p) ∨
    (parts.length % 2 = 1 ∧ 3 ≤ parts.length ∧ (∀ p ∈ parts.dropLast, IsNumber p) ∧
      ∀ p ∈ parts.getLast?, ¬IsNumber p)

/-- The box is the one that the parts say: its axes are numbered, their lower bounds are the first
half of the parts and their upper bounds the second half, and what is left over is the reference
system. -/
structure GivenBy (parts : List String) (b : Box) : Prop where
  count : b.axes.length = parts.length / 2
  axes : ∀ i < parts.length / 2, ∃ a low high,
    b.axes[i]? = some a ∧ parts[i]? = some low ∧ parts[parts.length / 2 + i]? = some high ∧
      a.name = "axis" ++ Number.ofNatural i ∧ Number.real? low = some a.lower ∧
      Number.real? high = some a.upper
  crs : b.crs = if parts.length % 2 = 1 then parts.getLast? else none
  period : b.period = none

theorem queryNumbers_eq_ok_iff :
    queryNumbers ps = .ok xs ↔ ps.map Number.real? = xs.map some := by
  induction ps generalizing xs with
  | nil => cases xs <;> simp [queryNumbers]
  | cons p ps ih =>
      rw [queryNumbers]
      cases h : Number.real? p with
      | none => cases xs <;> simp [h]
      | some x =>
          cases xs with
          | nil => simp
          | cons y ys => simp [h, ih, and_comm]

theorem exists_queryNumbers_iff : (∃ xs, queryNumbers ps = .ok xs) ↔ ∀ p ∈ ps, IsNumber p := by
  induction ps with
  | nil => simp [queryNumbers]
  | cons p ps ih =>
      rw [List.forall_mem_cons, ← ih, IsNumber, queryNumbers]
      cases Number.real? p <;> simp

theorem queryNumbers_eq_error {e : Refusal} (h : queryNumbers ps = .error e) :
    ∃ p, e = .number p := by
  induction ps with
  | nil => cases h
  | cons p ps ih =>
      rw [queryNumbers] at h
      split at h
      · exact ih (map_eq_error_iff.1 h)
      · cases h
        exact ⟨p, rfl⟩

theorem ofNatural_injective : Function.Injective Number.ofNatural := by
  intro m n h
  have hdigits : Number.digits m = Number.digits n := String.ofList_injective h
  have hread := Number.natural?_digits m
  rw [hdigits, Number.natural?_digits] at hread
  exact (Option.some.inj hread).symm

/-- Numbers make different names. -/
theorem nodup_numberedLabels (n : Nat) : (numberedLabels n).Nodup :=
  List.nodup_range.map fun _ _ h => ofNatural_injective ((String.append_right_inj "axis").1 h)

theorem names_zipAxes_sublist (labels : List String) (lower upper : List Float) :
    ((zipAxes labels lower upper).map Axis.name).Sublist labels := by
  induction labels generalizing lower upper with
  | nil => exact List.Sublist.slnil
  | cons l ls ih =>
      cases lower with
      | nil => exact List.nil_sublist _
      | cons x xs =>
          cases upper with
          | nil => exact List.nil_sublist _
          | cons y ys => exact (ih xs ys).cons_cons l

/-- The box of numbers without names: the first half are its lower bounds, the second half its upper
ones. -/
def numbered (xs : List Float) (crs : Option String) : Box :=
  ⟨zipAxes (numberedLabels (xs.length / 2)) (xs.take (xs.length / 2)) (xs.drop (xs.length / 2)), none,
    crs⟩

theorem ofAxes_numbered (xs : List Float) (crs : Option String) :
    ofAxes (numbered xs crs).axes crs = .ok (numbered xs crs) :=
  ofAxes_eq_ok_iff.2 ⟨(nodup_numberedLabels _).sublist (names_zipAxes_sublist _ _ _), rfl⟩

/-- The parts are those that are read as numbers, in an even count, and the reference system if there
is one. -/
theorem partsOf_eq (h : queryParts s = (ps, crs)) :
    partsOf s = ps ++ crs.toList ∧ ps.length % 2 = 0 := by
  change (if (partsOf s).length % 2 = 1 then ((partsOf s).dropLast, (partsOf s).getLast?)
    else (partsOf s, none)) = (ps, crs) at h
  split at h
  next hodd =>
    cases h
    have hne : partsOf s ≠ [] := by
      intro hnil
      rw [hnil] at hodd
      cases hodd
    rw [List.getLast?_eq_some_getLast hne, List.length_dropLast]
    refine ⟨(List.dropLast_append_getLast hne).symm, ?_⟩
    omega
  next heven =>
    cases h
    exact ⟨(List.append_nil _).symm, by omega⟩

theorem partsOf_ne_nil (s : String) : partsOf s ≠ [] := by
  simp [partsOf, Text.fields, Text.split_ne_nil]

/-- What is read of a text, given its numbers and its reference system. -/
theorem ofQuery_eq (h : queryParts s = (ps, crs)) :
    ofQuery s =
      if (crs.bind Number.real?).isSome then .error (.oddCount s)
      else if ps = [] then .error (.noNumbers s)
      else (queryNumbers ps).map fun xs => numbered xs crs := by
  rw [ofQuery, h]
  dsimp only
  split
  · rfl
  · split
    · rfl
    · cases queryNumbers ps with
      | error e => rfl
      | ok xs => exact ofAxes_numbered xs crs

theorem bind_real?_eq_none_iff : ¬(crs.bind Number.real?).isSome ↔ ∀ c ∈ crs, ¬IsNumber c := by
  cases crs <;> simp [IsNumber, Option.isSome_iff_exists]

theorem ofQuery_eq_ok_iff (h : queryParts s = (ps, crs)) :
    ofQuery s = .ok b ↔
      (∀ c ∈ crs, ¬IsNumber c) ∧ ps ≠ [] ∧ ∃ xs, queryNumbers ps = .ok xs ∧ numbered xs crs = b := by
  rw [ofQuery_eq h, ← bind_real?_eq_none_iff]
  by_cases hcrs : (crs.bind Number.real?).isSome <;> by_cases hps : ps = [] <;> simp [hcrs, hps]

theorem ofQuery_ne_repeatedAxis (s name : String) : ofQuery s ≠ .error (.repeatedAxis name) := by
  intro h
  rw [ofQuery_eq rfl] at h
  split at h
  · cases h
  · split at h
    · cases h
    · obtain ⟨p, hp⟩ := queryNumbers_eq_error (map_eq_error_iff.1 h)
      cases hp

/-- What numbers and the reference system have to be for the parts to hold corners. -/
theorem holdCorners_iff (h : queryParts s = (ps, crs)) :
    HoldCorners (partsOf s) ↔ (∀ c ∈ crs, ¬IsNumber c) ∧ ps ≠ [] ∧ ∀ p ∈ ps, IsNumber p := by
  obtain ⟨hparts, heven⟩ := partsOf_eq h
  have hne := partsOf_ne_nil s
  rw [hparts] at hne ⊢
  cases crs with
  | none =>
      rw [Option.toList_none, List.append_nil] at hne ⊢
      simp [HoldCorners, heven, hne]
  | some c =>
      have hlength : (ps ++ [c]).length % 2 = 1 := by
        rw [List.length_append, List.length_singleton]
        omega
      have hthree : 3 ≤ (ps ++ [c]).length ↔ ps ≠ [] := by
        rw [List.length_append, List.length_singleton, ← List.length_pos_iff]
        omega
      rw [Option.toList_some, HoldCorners, hlength, hthree]
      simp [and_comm, and_left_comm]

theorem corners_numbered {xs : List Float} (heven : xs.length % 2 = 0) (crs : Option String) :
    (numbered xs crs).labels = numberedLabels (xs.length / 2) ∧
      (numbered xs crs).lowerCorner = xs.take (xs.length / 2) ∧
      (numbered xs crs).upperCorner = xs.drop (xs.length / 2) := by
  refine (axes_eq_zipAxes_iff ?_ ?_).1 rfl
  · simp only [numberedLabels, List.length_map, List.length_range, List.length_take]
    omega
  · simp only [numberedLabels, List.length_map, List.length_range, List.length_drop]
    omega

theorem length_axes_numbered {xs : List Float} (heven : xs.length % 2 = 0) (crs : Option String) :
    (numbered xs crs).axes.length = xs.length / 2 := by
  have hlabels := congrArg List.length (corners_numbered heven crs).1
  simpa [labels, numberedLabels] using hlabels

/-- The axis at a place has the number of the place, and its bounds stand there in the two halves. -/
theorem getElem?_axes_numbered {xs : List Float} (heven : xs.length % 2 = 0) (crs : Option String)
    {i : Nat} (hi : i < xs.length / 2) :
    ∃ a, (numbered xs crs).axes[i]? = some a ∧ a.name = "axis" ++ Number.ofNatural i ∧
      xs[i]? = some a.lower ∧ xs[xs.length / 2 + i]? = some a.upper := by
  obtain ⟨hlabels, hlower, hupper⟩ := corners_numbered heven crs
  have hplace : i < (numbered xs crs).axes.length := (length_axes_numbered heven crs).symm ▸ hi
  obtain ⟨a, ha⟩ : ∃ a, (numbered xs crs).axes[i]? = some a := ⟨_, List.getElem?_eq_getElem hplace⟩
  have hname : (numberedLabels (xs.length / 2))[i]? = some a.name := by
    rw [← hlabels, labels, List.getElem?_map, ha]
    rfl
  refine ⟨a, ha, ?_, ?_, ?_⟩
  · simpa [numberedLabels, hi] using hname.symm
  · rw [← List.getElem?_take_of_lt hi, ← hlower, lowerCorner, List.getElem?_map, ha]
    rfl
  · rw [← List.getElem?_drop, ← hupper, upperCorner, List.getElem?_map, ha]
    rfl

/-- The number of a part. -/
theorem getElem?_of_map_eq (hxs : ps.map Number.real? = xs.map some) {i : Nat} {x : Float}
    (hx : xs[i]? = some x) : ∃ p, ps[i]? = some p ∧ Number.real? p = some x := by
  have hi := congrArg (fun l => l[i]?) hxs
  simpa [hx] using hi

theorem givenBy_numbered (hxs : ps.map Number.real? = xs.map some) (heven : ps.length % 2 = 0) :
    GivenBy (ps ++ crs.toList) (numbered xs crs) := by
  have hlength : ps.length = xs.length := by
    simpa using congrArg List.length hxs
  have hparity : (ps ++ crs.toList).length % 2 = crs.toList.length ∧
      (ps ++ crs.toList).length / 2 = xs.length / 2 := by
    rw [List.length_append, hlength]
    cases crs <;> simp <;> omega
  have hpart {j : Nat} {p : String} (h : ps[j]? = some p) : (ps ++ crs.toList)[j]? = some p :=
    (List.getElem?_append_left (List.getElem?_eq_some_iff.1 h).1).trans h
  have hxsEven : xs.length % 2 = 0 := hlength ▸ heven
  refine ⟨?_, fun i hi => ?_, ?_, rfl⟩
  · rw [hparity.2, length_axes_numbered hxsEven]
  · rw [hparity.2] at hi ⊢
    obtain ⟨a, ha, hname, hlower, hupper⟩ := getElem?_axes_numbered hxsEven crs hi
    obtain ⟨low, hlow, hlower⟩ := getElem?_of_map_eq hxs hlower
    obtain ⟨high, hhigh, hupper⟩ := getElem?_of_map_eq hxs hupper
    exact ⟨a, low, high, ha, hpart hlow, hpart hhigh, hname, hlower, hupper⟩
  · rw [hparity.1, numbered]
    cases crs with
    | none => rfl
    | some c => simp

/-- As many names as axes that differ from each other can be given to the axes, and nothing else of
the box changes. -/
theorem exists_withLabels (hlength : labels.length = b.axes.length) (hnodup : labels.Nodup) :
    ∃ c, b.withLabels labels = .ok c ∧ c.labels = labels ∧ c.lowerCorner = b.lowerCorner ∧
      c.upperCorner = b.upperCorner ∧ c.period = b.period ∧ c.crs = b.crs := by
  have hfst : (b.axes.zip labels).map Prod.fst = b.axes :=
    List.map_fst_zip (Nat.le_of_eq hlength.symm)
  have hsnd : (b.axes.zip labels).map Prod.snd = labels := List.map_snd_zip (Nat.le_of_eq hlength)
  set renamed := (b.axes.zip labels).map fun e => { e.1 with name := e.2 } with hrenamed
  have hnames : renamed.map Axis.name = labels := by
    rw [hrenamed, List.map_map]
    exact hsnd
  have hmade : ofAxes renamed b.crs = .ok ⟨renamed, none, b.crs⟩ :=
    ofAxes_eq_ok_iff.2 ⟨hnames ▸ hnodup, rfl⟩
  refine ⟨⟨renamed, b.period, b.crs⟩, ?_, hnames, ?_, ?_, rfl, rfl⟩
  · rw [withLabels, if_pos hlength, ← hrenamed, hmade]
    rfl
  · rw [lowerCorner, lowerCorner, hrenamed, List.map_map]
    conv_rhs => rw [← hfst, List.map_map]
    rfl
  · rw [upperCorner, upperCorner, hrenamed, List.map_map]
    conv_rhs => rw [← hfst, List.map_map]
    rfl

/-- A text in a query holds a box exactly if its parts hold corners, and then it is the box that they
give. That a name is repeated is never the reason why there is none, and the axes can be given any
names that differ. -/
theorem ofQuery_reads (s : String) :
    (Text.join "," (Text.fields ',' s) = s ∧ ∀ w ∈ Text.fields ',' s, ',' ∉ w.toList) ∧
      ((∃ b, ofQuery s = .ok b) ↔ HoldCorners (partsOf s)) ∧
      (∀ name, ofQuery s ≠ .error (.repeatedAxis name)) ∧
      ∀ b, ofQuery s = .ok b → GivenBy (partsOf s) b ∧
        ∀ labels, labels.length = (partsOf s).length / 2 → labels.Nodup →
          ∃ c, b.withLabels labels = .ok c ∧ c.labels = labels ∧ c.lowerCorner = b.lowerCorner ∧
            c.upperCorner = b.upperCorner ∧ c.period = b.period ∧ c.crs = b.crs := by
  have hparts : queryParts s = ((queryParts s).1, (queryParts s).2) := rfl
  refine ⟨⟨Text.join_fields ',' s, fun w => Text.not_mem_of_mem_fields⟩, ?_,
    ofQuery_ne_repeatedAxis s, fun b hb => ?_⟩
  · simp only [ofQuery_eq_ok_iff hparts, holdCorners_iff hparts, ← exists_queryNumbers_iff]
    constructor
    · rintro ⟨-, hcrs, hne, xs, hxs, -⟩
      exact ⟨hcrs, hne, xs, hxs⟩
    · rintro ⟨hcrs, hne, xs, hxs⟩
      exact ⟨_, hcrs, hne, xs, hxs, rfl⟩
  · obtain ⟨-, -, xs, hxs, rfl⟩ := (ofQuery_eq_ok_iff hparts).1 hb
    obtain ⟨heq, heven⟩ := partsOf_eq hparts
    have hgiven : GivenBy (partsOf s) (numbered xs (queryParts s).2) :=
      heq ▸ givenBy_numbered (queryNumbers_eq_ok_iff.1 hxs) heven
    exact ⟨hgiven, fun labels hlength hnodup =>
      exists_withLabels (hlength.trans hgiven.count.symm) hnodup⟩

end Box

end CoverageAccess
