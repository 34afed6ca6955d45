import CoverageAccess.Proofs.Outcome
import CoverageAccess.Proofs.Scaling.Markup
import CoverageAccess.Scaling.Query
/-!
# Scalings read from queries

The mode that a query holds can be written in a document: its axes are trimmed, its factors are
positive and finite, and its sizes have 64 bits.
-/

namespace CoverageAccess

namespace Scaling

variable {α : Type} {locator text : String}

theorem factor_eq_ok {f : Float} (h : factor locator text = .ok f) :
    f.isFinite = true ∧ 0 < f := by
  unfold factor at h
  split at h
  · split at h
    next hf =>
      cases h
      obtain ⟨hfinite, hpos⟩ := Bool.and_eq_true_iff.1 hf
      exact ⟨hfinite, of_decide_eq_true hpos⟩
    next => cases h
  · cases h

theorem size_eq_ok {n : Nat} (h : size locator text = .ok n) : n ≤ Number.maxSize := by
  unfold size at h
  split at h
  next hn =>
    cases h
    exact Number.unsigned?_le hn
  next => cases h

/-- The entries have the axes of the items, and the values that are read of them. -/
theorem forall₂_of_readValues {read : String → Except Refusal α} {items : List (String × String)}
    {entries : List (String × α)} (h : readValues read items = .ok entries) :
    List.Forall₂ (fun item e => item.1 = e.1 ∧ read item.2 = .ok e.2) items entries := by
  induction items generalizing entries with
  | nil =>
      cases h
      exact .nil
  | cons item items ih =>
      obtain ⟨value, hvalue, h⟩ := bind_eq_ok_iff.1 h
      obtain ⟨rest, hrest, h⟩ := bind_eq_ok_iff.1 h
      rw [← pure_eq_ok_iff.1 h]
      exact .cons ⟨rfl, hvalue⟩ (ih hrest)

theorem trim_of_axisItem? {s rest : List Char} {item : String × String}
    (h : axisItem? s = some (item, rest)) : Text.trim item.1 = item.1 := by
  simp only [axisItem?, Option.bind_eq_bind, Option.bind_eq_some_iff] at h
  obtain ⟨⟨before, r⟩, -, ⟨axis, value⟩, -, h⟩ := h
  split at h
  · cases h
  · cases h
    exact Text.trim_trim _

theorem trim_of_axisItems? {s : List Char} {items : List (String × String)}
    (h : axisItems? s = some items) : ∀ item ∈ items, Text.trim item.1 = item.1 := by
  fun_induction axisItems? s generalizing items with
  | case1 s hitem => cases h
  | case2 s item rest hitem hrest =>
      cases h
      exact List.forall_mem_singleton.2 (trim_of_axisItem? hitem)
  | case3 s item rest hitem more hrest ih =>
      obtain ⟨others, hothers, h⟩ := Option.bind_eq_some_iff.1 h
      cases h
      exact List.forall_mem_cons.2 ⟨trim_of_axisItem? hitem, ih hothers⟩
  | case4 s item rest hitem hnil hcomma => cases h

/-- The axes of a list are trimmed, whatever is read of their values. -/
theorem readValues_axisList_eq_ok {read : String → Except Refusal α}
    {entries : List (String × α)}
    (h : (axisList locator text >>= fun items => readValues read items) = .ok entries) :
    (∀ a ∈ entries.map Prod.fst, Text.trim a = a) ∧
      ∀ v ∈ entries.map Prod.snd, ∃ text, read text = .ok v := by
  obtain ⟨items, hitems, h⟩ := bind_eq_ok_iff.1 h
  have hread := forall₂_of_readValues h
  unfold axisList at hitems
  split at hitems
  next items' hitems' =>
    cases hitems
    constructor
    · rw [List.forall_mem_map]
      intro e he
      obtain ⟨item, hitem, haxis, -⟩ := exists_of_mem_of_forall₂ hread he
      rw [← haxis]
      exact trim_of_axisItems? hitems' item hitem
    · rw [List.forall_mem_map]
      intro e he
      obtain ⟨item, -, -, hvalue⟩ := exists_of_mem_of_forall₂ hread he
      exact ⟨item.2, hvalue⟩
  next => cases hitems

theorem queryMode_eq_ok {q : Query} {mode : Option ScaleMode} (h : queryMode q = .ok mode) :
    ∀ m ∈ mode, m.Readable := by
  unfold queryMode at h
  split at h
  · obtain ⟨f, hf, rfl⟩ := map_eq_ok_iff.1 h
    rintro m ⟨⟩
    refine ⟨by simp [ScaleMode.axes], ?_, by simp [ScaleMode.sizes]⟩
    exact List.forall_mem_singleton.2 (factor_eq_ok hf)
  · rw [← bind_assoc] at h
    obtain ⟨factors, hfactors, h⟩ := bind_eq_ok_iff.1 h
    cases pure_eq_ok_iff.1 h
    obtain ⟨haxes, hvalues⟩ := readValues_axisList_eq_ok hfactors
    rintro m ⟨⟩
    refine ⟨haxes, fun f hf => ?_, by simp [ScaleMode.sizes]⟩
    obtain ⟨text, htext⟩ := hvalues f hf
    exact factor_eq_ok htext
  · rw [← bind_assoc] at h
    obtain ⟨sizes, hsizes, h⟩ := bind_eq_ok_iff.1 h
    cases pure_eq_ok_iff.1 h
    obtain ⟨haxes, hvalues⟩ := readValues_axisList_eq_ok hsizes
    rintro m ⟨⟩
    refine ⟨haxes, by simp [ScaleMode.factors], fun n hn => ?_⟩
    obtain ⟨text, htext⟩ := hvalues n hn
    exact size_eq_ok htext
  · cases h
    simp

/-- What the parameters of a query have to be for its scaling to be `s`. -/
structure IsOfQuery (q : Query) (s : Scaling) : Prop where
  single : (modeKeys.filter q.has).length ≤ 1
  noExtent : q.has "scaleextent" = false
  noPerAxis : q.get? "interpolationperaxis" = .none
  mode : queryMode q = .ok s.mode
  outputCrs : s.outputCrs = q.get? "outputcrs"
  interpolation : s.interpolation = q.get? "interpolation"

theorem ofQuery_eq_ok_iff {q : Query} {s : Scaling} : ofQuery q = .ok s ↔ IsOfQuery q s := by
  constructor
  · intro h
    unfold ofQuery at h
    split at h
    next => cases h
    next hsingle =>
      split at h
      next => cases h
      next hextent =>
        split at h
        next => cases h
        next hperAxis =>
          obtain ⟨mode, hmode, h⟩ := bind_eq_ok_iff.1 h
          cases pure_eq_ok_iff.1 h
          exact ⟨Nat.le_of_not_lt hsingle, eq_false_of_ne_true hextent, hperAxis, hmode, rfl,
            rfl⟩
  · rintro ⟨hsingle, hextent, hperAxis, hmode, hcrs, hmethod⟩
    obtain ⟨mode, outputCrs, interpolation⟩ := s
    dsimp only at *
    subst hcrs hmethod
    rw [ofQuery, if_neg (Nat.not_lt.2 hsingle), if_neg (by simp [hextent])]
    simp only [hperAxis, hmode, ok_bind]
    rfl

/-- The scaling of a query has a mode that a document can hold. -/
theorem ofQuery_eq_ok {q : Query} {s : Scaling} (h : ofQuery q = .ok s) :
    ∀ m ∈ s.mode, m.Readable :=
  queryMode_eq_ok (ofQuery_eq_ok_iff.1 h).mode

end Scaling

end CoverageAccess
