import CoverageAccess.Query
import CoverageAccess.Scaling.Basic
/-!
# Scaling in queries

A query may hold at most one of the four scaling parameters. The two that speak of single axes hold
a list `axis(value),axis(value),…`; `axisList` reads it, and ends because every item is taken from a
shorter text.
-/

namespace CoverageAccess

namespace Scaling

/-- One item `axis(value)` at the beginning of a text, with blanks removed around the axis and the
value, and what follows it. -/
def axisItem? (s : List Char) : Option ((String × String) × List Char) := do
  let (before, rest) ← Text.cut? (· == ')') s
  let (axis, value) ← Text.cut? (· == '(') before
  let axis := Text.trim (String.ofList axis)
  let value := Text.trim (String.ofList value)
  if axis = "" ∨ value = "" then .none else some ((axis, value), rest)

theorem length_cut?_lt {p : Char → Bool} {s a b : List Char} (h : Text.cut? p s = some (a, b)) :
    b.length < s.length := by
  induction s generalizing a with
  | nil => simp [Text.cut?] at h
  | cons c s ih =>
    unfold Text.cut? at h
    split at h
    · cases h
      simp
    · obtain ⟨⟨a', b'⟩, hr, he⟩ := Option.map_eq_some_iff.1 h
      cases he
      exact Nat.lt_succ_of_lt (ih hr)

theorem length_axisItem?_lt {s rest : List Char} {item : String × String}
    (h : axisItem? s = some (item, rest)) : rest.length < s.length := by
  simp only [axisItem?, Option.bind_eq_bind, Option.bind_eq_some_iff] at h
  obtain ⟨⟨before, r⟩, hc, ⟨axis, value⟩, -, h⟩ := h
  split at h
  · cases h
  · cases h
    exact length_cut?_lt hc

/-- The items of a list, from an item on. A comma has to follow every item but the last, with blanks
around it. -/
def axisItems? (s : List Char) : Option (List (String × String)) :=
  match _h : axisItem? s with
  | .none => .none
  | some (item, rest) =>
    match _hr : Text.trimStart Text.isBlank rest with
    | [] => some [item]
    | ',' :: more => do
      let items ← axisItems? (Text.trimStart Text.isBlank more)
      return item :: items
    | _ => .none
termination_by s.length
decreasing_by
  have h1 := length_axisItem?_lt _h
  have h2 : (Text.trimStart Text.isBlank rest).length ≤ rest.length :=
    (List.dropWhile_sublist _).length_le
  have h3 : (Text.trimStart Text.isBlank more).length ≤ more.length :=
    (List.dropWhile_sublist _).length_le
  rw [_hr, List.length_cons] at h2
  omega

def axisList (locator s : String) : Except Refusal (List (String × String)) :=
  match axisItems? (Text.trimBy Text.isBlank s.toList) with
  | some items => .ok items
  | .none => .error (.axisList locator s)

def modeKeys : List String := ["scalefactor", "scaleaxes", "scalesize", "scaleextent"]

def isAxisMethod (entry : String) : Bool :=
  match Text.cutAt? ',' entry with
  | some (axis, method) => !Text.isAllBlank axis && !Text.isAllBlank method
  | .none => false

/-- Methods for single axes are refused, for the first reason there is. -/
def perAxisRefusal (s : String) : Refusal :=
  match ((Text.fields ';' s).filter fun e => !Text.isAllBlank e).find? fun e => !isAxisMethod e with
  | some entry => .perAxisForm entry
  | .none => .perAxis "INTERPOLATIONPERAXIS"

/-- The mode of a query that holds at most one scaling parameter. -/
def queryMode (q : Query) : Except Refusal (Option ScaleMode) :=
  match q.get? "scalefactor", q.get? "scaleaxes", q.get? "scalesize" with
  | some text, _, _ => (factor "SCALEFACTOR" text).map fun f => some (.uniform f)
  | _, some text, _ => do
    let factors ← readValues (factor "SCALEAXES") (← axisList "SCALEAXES" text)
    return some (.byAxis factors)
  | _, _, some text => do
    let sizes ← readValues (size "SCALESIZE") (← axisList "SCALESIZE" text)
    return some (.toSize sizes)
  | .none, .none, .none => .ok .none

/-- What a query says about resampling. -/
def ofQuery (q : Query) : Except Refusal Scaling :=
  if 1 < (modeKeys.filter q.has).length then .error .severalModes
  else if q.has "scaleextent" then .error (.extent "SCALEEXTENT")
  else
    match q.get? "interpolationperaxis" with
    | some s => .error (perAxisRefusal s)
    | .none => do
      let mode ← queryMode q
      return ⟨mode, q.get? "outputcrs", q.get? "interpolation"⟩

end Scaling

end CoverageAccess
