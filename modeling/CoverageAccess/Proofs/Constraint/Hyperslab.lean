import CoverageAccess.Proofs.Constraint.Expression
import CoverageAccess.Proofs.Text.Split
/-!
# Brackets as hyperslabs

A bracket is a hyperslab of one axis: all of it, one position, or a range of positions with the step
one, which may be open above (`IsHyperslab`). Its bounds are those of the subset, as the client
wrote them, so they are integers and may have a sign; only the wildcard below is written as zero.
The bounds are read back by `Selection.ofBracket?`.
-/

namespace CoverageAccess

namespace Number

/-- Digits, and no sign. -/
structure IsNumeral (s : String) : Prop where
  ne_empty : s ≠ ""
  digits : ∀ c ∈ s.toList, isDigit c = true

instance (s : String) : Decidable (IsNumeral s) :=
  decidable_of_iff (s ≠ "" ∧ ∀ c ∈ s.toList, isDigit c = true)
    ⟨fun h => ⟨h.1, h.2⟩, fun h => ⟨h.ne_empty, h.digits⟩⟩

/-- An integer of 64 bits, with or without a sign. -/
def IsInteger (s : String) : Prop :=
  ∃ n, Denotes s.toList n ∧ -2 ^ 63 ≤ n ∧ n < 2 ^ 63

theorem IsNumeral.colon_not_mem {s : String} (h : IsNumeral s) : ':' ∉ s.toList :=
  fun hc => absurd (h.digits _ hc) (by decide)

theorem isInteger_zero : IsInteger "0" :=
  ⟨0, .plain (by decide) (by decide), by decide, by decide⟩

end Number

open Number

theorem Subset.isPositionLike_iff {b : String} :
    isPositionLike b = true ↔ b = wildcard ∨ IsInteger b := by
  rw [isPositionLike, Bool.or_eq_true, beq_iff_eq, Option.isSome_iff_exists]
  exact or_congr_right (exists_congr fun _ => signed?_eq_some_iff)

/-- The text is a hyperslab of one axis with bounds of a kind: all positions, one position, or a
range of positions that may be open above. -/
inductive IsHyperslab (P : String → Prop) : String → Prop
  | whole : IsHyperslab P "[*]"
  | point {n : String} (h : P n) : IsHyperslab P ("[" ++ n ++ "]")
  | between {n m : String} (hn : P n) (hm : P m) : IsHyperslab P ("[" ++ n ++ ":1:" ++ m ++ "]")
  | above {n : String} (h : P n) : IsHyperslab P ("[" ++ n ++ ":1:" ++ "*" ++ "]")

namespace Selection

variable {t : Selection} {P : String → Prop} {text : String}

theorem isHyperslab_bracket (hzero : P "0") (h : ∀ b ∈ t.bounds, b = "*" ∨ P b) :
    IsHyperslab P t.bracket := by
  cases t with
  | trim low high =>
      have hlow := h low (by simp [bounds])
      have hhigh := h high (by simp [bounds])
      rw [bracket]
      split
      next => exact .whole
      next =>
        have hstart : P (if low = "*" then "0" else low) := by
          split
          · exact hzero
          next hne => exact hlow.resolve_left hne
        rcases hhigh with rfl | hhigh
        · exact .above hstart
        · exact .between hstart hhigh
  | slice point =>
      rcases h point (by simp [bounds]) with rfl | hpoint
      · exact .whole
      · exact .point hpoint

/-- The parts of the bracket. -/
def parts : Selection → List String
  | .trim low high =>
    if low = "*" ∧ high = "*" then ["*"] else [if low = "*" then "0" else low, "1", high]
  | .slice point => [point]

theorem range_eq_join (low high : String) :
    "[" ++ low ++ ":1:" ++ high ++ "]" = "[" ++ Text.join ":" [low, "1", high] ++ "]" :=
  String.toList_inj.1 (by simp [Text.join])

theorem bracket_eq_join (t : Selection) : t.bracket = "[" ++ Text.join ":" t.parts ++ "]" := by
  cases t with
  | trim low high =>
      rw [bracket, parts]
      split
      · rfl
      · exact range_eq_join _ _
  | slice point => rfl

/-- The selection of the parts of a bracket. -/
def ofParts? : List String → Option Selection
  | [point] => some (if point = "*" then .trim "*" "*" else .slice point)
  | [low, step, high] => if step = "1" then some (.trim low high) else none
  | _ => none

/-- The selection that is read back from a bracket. -/
def ofBracket? (text : String) : Option Selection := do
  let rest ← Text.dropStart? ['['] text.toList
  let inner ← Text.dropTail? [']'] rest
  ofParts? ((Text.split (· == ':') inner).map String.ofList)

/-- The selection as its bracket says it: a range that is open below starts at zero, and the
wildcard stands for the range that is open on both sides. -/
def filled : Selection → Selection
  | .trim low high => if low = "*" ∧ high ≠ "*" then .trim "0" high else .trim low high
  | .slice point => if point = "*" then .trim "*" "*" else .slice point

theorem ofParts?_parts (t : Selection) : ofParts? t.parts = some t.filled := by
  cases t with
  | trim low high =>
      by_cases hlow : low = "*" <;> by_cases hhigh : high = "*" <;>
        simp [parts, ofParts?, filled, hlow, hhigh]
  | slice point => rfl

theorem ofBracket?_join {ws : List String} (hne : ws ≠ []) (h : ∀ w ∈ ws, ':' ∉ w.toList) :
    ofBracket? ("[" ++ Text.join ":" ws ++ "]") = ofParts? ws := by
  have htail : Text.dropTail? [']'] ((Text.join ":" ws).toList ++ [']']) =
      some (Text.join ":" ws).toList := Text.dropTail?_eq_some_iff.2 rfl
  have hsplit : Text.split (· == ':') (Text.join ":" ws).toList = ws.map String.toList := by
    refine Text.split_join rfl (by decide) hne fun w hw d hd => beq_eq_false_iff_ne.2 ?_
    rintro rfl
    exact h w hw hd
  have hstart : ("[" ++ Text.join ":" ws ++ "]").toList =
      '[' :: ((Text.join ":" ws).toList ++ [']']) := by simp
  rw [ofBracket?, hstart]
  simp [Text.dropStart?, htail, hsplit]

theorem mem_parts {w : String} (h : w ∈ t.parts) : w ∈ t.bounds ∨ w ∈ ["*", "0", "1"] := by
  cases t with
  | trim low high =>
      rw [parts] at h
      split at h
      · simp_all
      · simp only [List.mem_cons, List.not_mem_nil, or_false] at h
        rcases h with rfl | rfl | rfl
        · split <;> simp [bounds]
        · exact .inr (by decide)
        · exact .inl (by simp [bounds])
  | slice point => exact .inl h

theorem parts_ne_nil (t : Selection) : t.parts ≠ [] := by
  cases t with
  | trim low high =>
      rw [parts]
      split <;> exact List.cons_ne_nil _ _
  | slice point => exact List.cons_ne_nil _ _

/-- A bracket says what the selection says, but for the zero below. -/
theorem ofBracket?_bracket (h : ∀ b ∈ t.bounds, ':' ∉ b.toList) :
    ofBracket? t.bracket = some t.filled := by
  rw [bracket_eq_join, ofBracket?_join t.parts_ne_nil, ofParts?_parts]
  intro w hw
  have hfixed : ∀ w ∈ ["*", "0", "1"], ':' ∉ w.toList := by decide
  exact (mem_parts hw).elim (h w) (hfixed w)

theorem mem_bounds_filled {b : String} (h : b ∈ t.bounds) : b = "*" ∨ b ∈ t.filled.bounds := by
  cases t with
  | trim low high =>
      rw [filled]
      split
      next hopen =>
        simp only [bounds, List.mem_cons, List.not_mem_nil, or_false] at h ⊢
        rcases h with rfl | rfl
        · exact .inl hopen.1
        · exact .inr (.inr rfl)
      next => exact .inr h
  | slice point =>
      rw [List.mem_singleton.1 h, filled]
      split
      next heq => exact .inl heq
      next => exact .inr List.mem_cons_self

theorem ofBracket?_whole : ofBracket? "[*]" = some (.trim "*" "*") := by
  decide

/-- What is read of a hyperslab has the bounds that it has. -/
theorem exists_of_isHyperslab (hP : ∀ b, P b → ':' ∉ b.toList) (h : IsHyperslab P text) :
    ∃ t, ofBracket? text = some t ∧ ∀ b ∈ t.bounds, b = "*" ∨ P b := by
  have hrange {n m : String} (hn : ':' ∉ n.toList) (hm : ':' ∉ m.toList) :
      ofBracket? ("[" ++ n ++ ":1:" ++ m ++ "]") = some (.trim n m) := by
    rw [range_eq_join, ofBracket?_join (List.cons_ne_nil _ _) (by simp [hn, hm])]
    rfl
  cases h with
  | whole => exact ⟨_, ofBracket?_whole, by simp [bounds]⟩
  | @point n hn =>
      have hread := ofBracket?_join (List.cons_ne_nil n []) (by simpa using hP n hn)
      refine ⟨_, hread, ?_⟩
      split
      · simp [bounds]
      · simp [bounds, hn]
  | between hn hm => exact ⟨_, hrange (hP _ hn) (hP _ hm), by simp [bounds, hn, hm]⟩
  | above hn => exact ⟨_, hrange (hP _ hn) (by decide), by simp [bounds, hn]⟩

/-- A bracket is a hyperslab with bounds of a kind exactly if the bounds of the selection are of
this kind. -/
theorem isHyperslab_bracket_iff (hzero : P "0") (hP : ∀ b, P b → ':' ∉ b.toList)
    (h : ∀ b ∈ t.bounds, ':' ∉ b.toList) :
    IsHyperslab P t.bracket ↔ ∀ b ∈ t.bounds, b = "*" ∨ P b := by
  refine ⟨fun hslab b hb => ?_, isHyperslab_bracket hzero⟩
  obtain ⟨u, hread, hbounds⟩ := exists_of_isHyperslab hP hslab
  obtain rfl : t.filled = u := Option.some.inj ((ofBracket?_bracket h).symm.trans hread)
  exact (mem_bounds_filled hb).elim .inl (hbounds b)

theorem bracket_eq_whole_iff (h : ∀ b ∈ t.bounds, ':' ∉ b.toList) :
    t.bracket = "[*]" ↔ ∀ b ∈ t.bounds, b = "*" := by
  constructor
  · intro hwhole b hb
    have hread := ofBracket?_bracket h
    rw [hwhole, ofBracket?_whole] at hread
    have hfilled : t.filled = .trim "*" "*" := (Option.some.inj hread).symm
    refine (mem_bounds_filled hb).elim id fun hmem => ?_
    rw [hfilled] at hmem
    simpa [bounds] using hmem
  · intro hall
    cases t with
    | trim low high => exact if_pos ⟨hall low (by simp [bounds]), hall high (by simp [bounds])⟩
    | slice point =>
        rw [hall point (by simp [bounds])]
        rfl

end Selection

namespace Subset

variable {s : Subset}

theorem Constructed.isHyperslab (h : s.Constructed) {text : String} (ht : s.bracket? = some text) :
    IsHyperslab IsInteger text := by
  obtain ⟨hp, ht⟩ := Option.ite_none_right_eq_some.1 ht
  cases ht
  exact Selection.isHyperslab_bracket isInteger_zero fun b hb =>
    isPositionLike_iff.1 ((h.bounds b hb).2 hp)

end Subset

namespace Coverage

variable {c : Coverage} {subsets : Table Subset} {scaling : Scaling}

/-- The text is that of the clause, or a call that resamples it. -/
inductive StandsIn (k : Clause) : String → Prop
  | alone : StandsIn k k.render
  | resampled (rest : String) : StandsIn k ("scale_grid(" ++ k.render ++ "," ++ rest ++ ")")

theorem standsIn_of_fieldText {f : Field} {text : String}
    (h : c.fieldText subsets scaling f = .ok text) :
    ∃ k, c.clause subsets f = .ok k ∧ StandsIn k text := by
  obtain ⟨k, hk, ⟨-, rfl⟩ | ⟨-, -, y, x, -, rfl⟩⟩ := fieldText_eq_ok_or h
  · exact ⟨k, hk, .alone⟩
  · have hstands : StandsIn k _ := .resampled (Number.ofNatural (scaling.sizeOf y) ++ "," ++
      Number.ofNatural (scaling.sizeOf x) ++ scaling.tail)
    exact ⟨k, hk, by simpa only [String.append_assoc] using hstands⟩

theorem isHyperslab_of_mem_brackets {axes : List Coordinate} {text : String}
    (hs : ∀ e ∈ subsets.entries, e.2.Constructed) (h : text ∈ brackets subsets axes) :
    IsHyperslab IsInteger text := by
  rcases mem_brackets h with rfl | ⟨e, he, hbracket⟩
  · exact .whole
  · exact (hs e he).isHyperslab hbracket

/-- The bracket of a subset by position is a hyperslab whose bounds are the wildcards and integers
of the subset, and have a sign exactly where the subset has one. It is read back as the subset, but
for the zero below; and it stands for the whole axis exactly if all bounds are wildcards. All
brackets of an expression are such hyperslabs. -/
theorem brackets_areHyperslabs :
    (∀ s : Subset, s.Inferred → s.byPosition = true → ∃ text, s.bracket? = some text ∧
      IsHyperslab IsInteger text ∧ Selection.ofBracket? text = some s.selection.filled ∧
      (IsHyperslab IsNumeral text ↔
        ∀ b ∈ s.selection.bounds, b = Subset.wildcard ∨ IsNumeral b) ∧
      (text = "[*]" ↔ ∀ b ∈ s.selection.bounds, b = Subset.wildcard)) ∧
    ∀ (c : Coverage) (names : List String) (subsets : Table Subset) (scaling : Scaling)
      (text : String), (∀ e ∈ subsets.entries, e.2.Constructed) →
      c.expression names subsets scaling = .ok text →
      ∃ fs texts, c.Selects names fs ∧ text = Text.join "," texts ∧
        List.Forall₂ (fun f t => ∃ k, c.clause subsets f = .ok k ∧ StandsIn k t ∧
          ∀ b ∈ k.brackets, IsHyperslab IsInteger b) fs texts := by
  constructor
  · intro s hs hp
    have hbracket : s.bracket? = some s.selection.bracket := if_pos hp
    have hcolon : ∀ b ∈ s.selection.bounds, ':' ∉ b.toList := fun b hb =>
      Subset.not_mem_of_isPositionLike ((hs.bounds b hb).2.trans hp) (by decide)
    exact ⟨_, hbracket, (Subset.Constructed.inferred hs).isHyperslab hbracket,
      Selection.ofBracket?_bracket hcolon,
      Selection.isHyperslab_bracket_iff ⟨by decide, by decide⟩
        (fun _ => IsNumeral.colon_not_mem) hcolon,
      Selection.bracket_eq_whole_iff hcolon⟩
  · intro c names subsets scaling text hs h
    obtain ⟨-, fs, texts, hselects, htext, htexts⟩ := exists_of_expression h
    refine ⟨fs, texts, hselects, htext, (forall₂_of_fieldTexts htexts).imp fun f t ht => ?_⟩
    obtain ⟨k, hk, hstands⟩ := standsIn_of_fieldText ht
    obtain ⟨found, -, hclause⟩ := bind_eq_ok_iff.1 hk
    have hbrackets : k.brackets = brackets subsets c.coordinates := by
      rw [← pure_eq_ok_iff.1 hclause]
    exact ⟨k, hk, hstands, fun b hb => isHyperslab_of_mem_brackets hs (hbrackets ▸ hb)⟩

/-- Latitudes whose bounds have signs. -/
def signedLatitudes : Subset := ⟨"latitude", .trim "-5" "+007", true⟩

theorem ofQuery_signedLatitudes : Subset.ofQuery "latitude(-5,+007)" = .ok signedLatitudes := by
  rfl

/-- The mask between these latitudes. -/
theorem brackets_areHyperslabs_signed :
    signedLatitudes.Inferred ∧ signedLatitudes.byPosition = true ∧
      (∃ text, signedLatitudes.bracket? = some text ∧ IsHyperslab IsInteger text ∧
        Selection.ofBracket? text = some signedLatitudes.selection.filled ∧
        (IsHyperslab IsNumeral text ↔
          ∀ b ∈ signedLatitudes.selection.bounds, b = Subset.wildcard ∨ IsNumeral b) ∧
        (text = "[*]" ↔ ∀ b ∈ signedLatitudes.selection.bounds, b = Subset.wildcard)) ∧
      let subsets := Table.ofList [("latitude", signedLatitudes)]
      (∀ e ∈ subsets.entries, e.2.Constructed) ∧
        weeklyGrid.expression ["mask"] subsets ⟨none, none, none⟩ = .ok "flags[*][-5:1:+007][*]" ∧
        ∃ fs texts, weeklyGrid.Selects ["mask"] fs ∧
          "flags[*][-5:1:+007][*]" = Text.join "," texts ∧
          List.Forall₂ (fun f t => ∃ k, weeklyGrid.clause subsets f = .ok k ∧ StandsIn k t ∧
            ∀ b ∈ k.brackets, IsHyperslab IsInteger b) fs texts := by
  have hinferred : signedLatitudes.Inferred := .ofQuery ofQuery_signedLatitudes
  have hconstructed : ∀ e ∈ (Table.ofList [("latitude", signedLatitudes)]).entries,
      e.2.Constructed := by
    intro e he
    rw [List.mem_singleton.1 he]
    exact .inferred hinferred
  have hexpression : weeklyGrid.expression ["mask"]
      (.ofList [("latitude", signedLatitudes)]) ⟨none, none, none⟩ =
        .ok "flags[*][-5:1:+007][*]" := by rfl
  exact ⟨hinferred, rfl, brackets_areHyperslabs.1 _ hinferred rfl, hconstructed, hexpression,
    brackets_areHyperslabs.2 _ _ _ _ _ hconstructed hexpression⟩

/-- The signs stand in the bracket, which so is no hyperslab of unsigned positions. -/
theorem signedLatitudes_not_numeral :
    Subset.ofQuery "latitude(-5,+007)" = .ok signedLatitudes ∧
      signedLatitudes.byPosition = true ∧
      signedLatitudes.bracket? = some "[-5:1:+007]" ∧
      weeklyGrid.expression ["mask"] (.ofList [("latitude", signedLatitudes)]) ⟨none, none, none⟩ =
        .ok "flags[*][-5:1:+007][*]" ∧
      ¬IsHyperslab IsNumeral "[-5:1:+007]" := by
  have hbracket : signedLatitudes.selection.bracket = "[-5:1:+007]" := by rfl
  refine ⟨ofQuery_signedLatitudes, rfl, by rfl, by rfl, fun h => ?_⟩
  rw [← hbracket, Selection.isHyperslab_bracket_iff ⟨by decide, by decide⟩
    (fun _ => IsNumeral.colon_not_mem) (by decide)] at h
  exact absurd (h "-5" (by decide)) (by decide)

end Coverage

end CoverageAccess
