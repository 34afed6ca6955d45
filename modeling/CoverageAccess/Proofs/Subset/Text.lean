import CoverageAccess.Proofs.Subset.Bounds
import CoverageAccess.Proofs.Text.Split
/-!
# Subsets written in queries

`Subset.Spells` says that a text is `dimension(low,high)` or `dimension(point)` for a subset, up to
blanks and quotes, and `Subset.HasForm` that moreover no bound holds a comma or a parenthesis. The
reader accepts every text of this form. But it only looks for the first opening parenthesis, the
last closing one and the first comma between them, and so accepts other texts as well, whose further
commas and parentheses end up in the bounds of a subset by value (`ofQuery_hasForm`).

A subset that has been read is written without blanks and quotes, and this text is read as the same
subset again (`toQuery_normal`).
-/

namespace CoverageAccess

namespace Selection

/-- The text of the bounds, as it stands between the parentheses. -/
def inner : Selection → List Char
  | .trim low high => low.toList ++ ',' :: high.toList
  | .slice point => point.toList

/-- The bound that comes first. -/
def first : Selection → String
  | .trim low _ => low
  | .slice point => point

theorem first_map (f : String → String) (t : Selection) : (t.map f).first = f t.first := by
  cases t <;> rfl

theorem first_mem_bounds (t : Selection) : t.first ∈ t.bounds := by
  cases t <;> exact List.mem_cons_self

/-- Every text stands for bounds, of which the first one holds no comma. -/
theorem exists_inner (s : List Char) : ∃ t : Selection, t.inner = s ∧ ',' ∉ t.first.toList := by
  cases hcut : Text.cut? (· == ',') s with
  | none =>
      refine ⟨.slice (.ofList s), String.toList_ofList, ?_⟩
      rw [first, String.toList_ofList]
      exact Text.cut?_beq_eq_none_iff.1 hcut
  | some r =>
      obtain ⟨hs, hlow⟩ := Text.cut?_beq_eq_some_iff.1 hcut
      refine ⟨.trim (.ofList r.1) (.ofList r.2), ?_, ?_⟩
      · rw [inner, String.toList_ofList, String.toList_ofList, hs]
      · rwa [first, String.toList_ofList]

end Selection

namespace Subset

variable {s : Subset} {text dimension : String} {raw : Selection}

/-- The subset of a dimension that a constructor makes of some bounds. -/
def ofSelection (dimension : String) : Selection → Except Refusal Subset
  | .trim low high => trim dimension low high
  | .slice point => slice dimension point

/-- A subset is made exactly if what is left of its bounds are bounds of its own kind. -/
theorem ofSelection_eq_ok_iff :
    ofSelection dimension raw = .ok s ↔
      s.dimension = dimension ∧ raw.map clean = s.selection ∧
        ∀ b ∈ s.selection.bounds, IsBound b ∧ isPositionLike b = s.byPosition := by
  obtain ⟨d, selection, kind⟩ := s
  cases raw with
  | trim low high =>
      rw [ofSelection, trim_eq_ok_iff]
      constructor
      · rintro ⟨hlow, hhigh, hkind, hs⟩
        cases hs
        simp [Selection.map, Selection.bounds, hlow, hhigh, hkind]
      · rintro ⟨rfl, rfl, hbounds⟩
        obtain ⟨hlow, klow⟩ := hbounds (clean low) (by simp [Selection.map, Selection.bounds])
        obtain ⟨hhigh, khigh⟩ := hbounds (clean high) (by simp [Selection.map, Selection.bounds])
        exact ⟨hlow, hhigh, klow.trans khigh.symm, by rw [klow]; rfl⟩
  | slice point =>
      rw [ofSelection, slice_eq_ok_iff]
      constructor
      · rintro ⟨hpoint, hs⟩
        cases hs
        simp [Selection.map, Selection.bounds, hpoint]
      · rintro ⟨rfl, rfl, hbounds⟩
        obtain ⟨hpoint, kpoint⟩ := hbounds (clean point) (by simp [Selection.map, Selection.bounds])
        exact ⟨hpoint, by rw [kpoint]; rfl⟩

theorem queryParts?_eq_some_iff {l name inner tail : List Char} :
    queryParts? l = some (name, inner, tail) ↔
      l = name ++ '(' :: (inner ++ ')' :: tail) ∧ '(' ∉ name ∧ ')' ∉ tail := by
  simp only [queryParts?, Option.bind_eq_bind, Option.bind_eq_some_iff, Prod.exists,
    Option.pure_def, Option.some.injEq, Prod.mk.injEq, Text.cut?_beq_eq_some_iff,
    Text.cutLast?_beq_eq_some_iff]
  constructor
  · rintro ⟨_, _, ⟨rfl, hname⟩, _, _, ⟨rfl, htail⟩, rfl, rfl, rfl⟩
    exact ⟨rfl, hname, htail⟩
  · rintro ⟨rfl, hname, htail⟩
    exact ⟨_, _, ⟨rfl, hname⟩, _, _, ⟨rfl, htail⟩, rfl, rfl, rfl⟩

/-- The parts of a text: the name of a dimension, bounds in parentheses, and blanks. -/
structure HasParts (text : String) (name : List Char) (raw : Selection) : Prop where
  parts : ∃ tail, text.toList = name ++ '(' :: (raw.inner ++ ')' :: tail) ∧
    ∀ c ∈ tail, Text.isBlank c = true
  free : '(' ∉ name

/-- What is read of a text with these parts, if its first bound holds no comma. -/
theorem ofQuery_of_hasParts {name : List Char} (h : HasParts text name raw)
    (hnamed : Text.trim (.ofList name) ≠ "") (hfirst : ',' ∉ raw.first.toList) :
    ofQuery text = ofSelection (Text.trim (.ofList name)) raw := by
  obtain ⟨tail, htext, htail⟩ := h.parts
  have hclose : ')' ∉ tail := fun hc => absurd (htail _ hc) (by decide)
  have hblank : ¬(!tail.all Text.isBlank) = true := by simpa using htail
  rw [ofQuery, queryParts?_eq_some_iff.2 ⟨htext, h.free, hclose⟩]
  dsimp only
  rw [if_neg hnamed, if_neg hblank]
  cases raw with
  | trim low high =>
      rw [Selection.first] at hfirst
      rw [Selection.inner, Text.cut?_beq_eq_some_iff.2 ⟨rfl, hfirst⟩]
      dsimp only
      rw [String.ofList_toList, String.ofList_toList, ofSelection]
  | slice point =>
      rw [Selection.first] at hfirst
      rw [Selection.inner, Text.cut?_beq_eq_none_iff.2 hfirst]
      dsimp only
      rw [String.ofList_toList, ofSelection]

/-- A text is read exactly if it has parts of which a constructor makes the subset. -/
theorem ofQuery_eq_ok_iff :
    ofQuery text = .ok s ↔
      ∃ name raw, HasParts text name raw ∧ Text.trim (.ofList name) ≠ "" ∧
        ',' ∉ raw.first.toList ∧ ofSelection (Text.trim (.ofList name)) raw = .ok s := by
  constructor
  · intro h
    have hread := h
    unfold ofQuery at h
    split at h
    next => cases h
    next name inner tail hcut =>
      obtain ⟨htext, hfree, -⟩ := queryParts?_eq_some_iff.1 hcut
      dsimp only at h
      split at h
      next => cases h
      next hnamed =>
        split at h
        next => cases h
        next htail =>
          obtain ⟨raw, rfl, hfirst⟩ := Selection.exists_inner inner
          have hparts : HasParts text name raw := ⟨⟨tail, htext, by simpa using htail⟩, hfree⟩
          rw [ofQuery_of_hasParts hparts hnamed hfirst] at hread
          exact ⟨name, raw, hparts, hnamed, hfirst, hread⟩
  · rintro ⟨name, raw, hparts, hnamed, hfirst, h⟩
    rw [ofQuery_of_hasParts hparts hnamed hfirst, h]

/-- The text is `dimension(low,high)` or `dimension(point)` for the subset, with blanks around the
dimension and at the end, and with blanks and quotes around the bounds. -/
structure Spells (text : String) (s : Subset) : Prop where
  parts : ∃ name raw, HasParts text name raw ∧ Text.trim (.ofList name) = s.dimension ∧
    raw.map clean = s.selection
  named : s.dimension ≠ ""
  bounds : ∀ b ∈ s.selection.bounds, IsBound b ∧ isPositionLike b = s.byPosition

/-- The text spells the subset, and no bound holds a character that divides the parts of such a
text. -/
structure HasForm (text : String) (s : Subset) : Prop extends Spells text s where
  undivided : ∀ b ∈ s.selection.bounds, ',' ∉ b.toList ∧ '(' ∉ b.toList ∧ ')' ∉ b.toList

theorem mem_clean_iff {b : String} {c : Char} (hc : isMargin c = false) :
    c ∈ (clean b).toList ↔ c ∈ b.toList := by
  rw [clean, String.toList_ofList]
  exact ⟨Text.mem_of_mem_trimBy, fun h => Text.mem_trimBy h hc⟩

/-- Of the subsets that a text spells, the one is read whose first bound holds no comma. -/
theorem ofQuery_eq_ok_iff_spells :
    ofQuery text = .ok s ↔ Spells text s ∧ ',' ∉ s.selection.first.toList := by
  have hfirst (raw : Selection) (h : raw.map clean = s.selection) :
      ',' ∈ s.selection.first.toList ↔ ',' ∈ raw.first.toList := by
    rw [← h, Selection.first_map, mem_clean_iff (by decide)]
  rw [ofQuery_eq_ok_iff]
  constructor
  · rintro ⟨name, raw, hparts, hnamed, hcomma, h⟩
    obtain ⟨hdimension, hselection, hbounds⟩ := ofSelection_eq_ok_iff.1 h
    rw [hfirst raw hselection]
    exact ⟨⟨⟨name, raw, hparts, hdimension.symm, hselection⟩, hdimension ▸ hnamed, hbounds⟩, hcomma⟩
  · rintro ⟨⟨⟨name, raw, hparts, hdimension, hselection⟩, hnamed, hbounds⟩, hcomma⟩
    rw [hfirst raw hselection] at hcomma
    refine ⟨name, raw, hparts, hdimension ▸ hnamed, hcomma, ?_⟩
    exact ofSelection_eq_ok_iff.2 ⟨hdimension.symm, hselection, hbounds⟩

theorem undivided_of_isPositionLike {b : String} (h : isPositionLike b = true) :
    ',' ∉ b.toList ∧ '(' ∉ b.toList ∧ ')' ∉ b.toList :=
  ⟨not_mem_of_isPositionLike h (by decide), not_mem_of_isPositionLike h (by decide),
    not_mem_of_isPositionLike h (by decide)⟩

/-- A text of the form is read as what it says, and of the other texts exactly those are read as
well whose first bound holds no comma. What has been read has the form if no bound holds a comma or
a parenthesis, which is the case for every subset by position. -/
theorem ofQuery_hasForm (text : String) (s : Subset) :
    (HasForm text s → ofQuery text = .ok s) ∧
      (ofQuery text = .ok s ↔ Spells text s ∧ ',' ∉ s.selection.first.toList) ∧
      (ofQuery text = .ok s → (HasForm text s ↔
        ∀ b ∈ s.selection.bounds, ',' ∉ b.toList ∧ '(' ∉ b.toList ∧ ')' ∉ b.toList)) ∧
      (ofQuery text = .ok s → s.byPosition = true → HasForm text s) := by
  refine ⟨fun h => ?_, ofQuery_eq_ok_iff_spells, fun h => ⟨HasForm.undivided, fun hb => ?_⟩,
    fun h hp => ?_⟩
  · exact ofQuery_eq_ok_iff_spells.2
      ⟨h.toSpells, (h.undivided _ s.selection.first_mem_bounds).1⟩
  · exact ⟨(ofQuery_eq_ok_iff_spells.1 h).1, hb⟩
  · have hspells := (ofQuery_eq_ok_iff_spells.1 h).1
    refine ⟨hspells, fun b hb => undivided_of_isPositionLike ?_⟩
    rw [(hspells.bounds b hb).2, hp]

/-- A latitude between two values, with blanks and quotes. -/
def quotedLatitudes : String := " lat ( \"-1.5\" ,\t'2.5' )\u00a0"

theorem hasForm_quotedLatitudes :
    HasForm quotedLatitudes ⟨"lat", .trim "-1.5" "2.5", false⟩ where
  parts := ⟨" lat ".toList, .trim " \"-1.5\" " "\t'2.5' ",
    ⟨⟨"\u00a0".toList, by decide, by decide⟩, by decide⟩, by decide, by decide⟩
  named := by decide
  bounds b hb := by
    have hall : ∀ b ∈ ["-1.5", "2.5"], (clean b = b ∧ b ≠ "" ∧ '"' ∉ b.toList) ∧
        isPositionLike b = false := by decide
    obtain ⟨⟨hclean, hne, hquote⟩, hvalue⟩ := hall b hb
    exact ⟨⟨hclean, hne, hquote⟩, hvalue⟩
  undivided := by decide

/-- Three bounds and bounds in further parentheses are read, although they have the form for no
subset. -/
theorem ofQuery_hasForm_latitudes :
    HasForm quotedLatitudes ⟨"lat", .trim "-1.5" "2.5", false⟩ ∧
      ofQuery quotedLatitudes = .ok ⟨"lat", .trim "-1.5" "2.5", false⟩ ∧
      ofQuery "lat(1.5,2.5,3.5)" = .ok ⟨"lat", .trim "1.5" "2.5,3.5", false⟩ ∧
      (∀ s, ¬HasForm "lat(1.5,2.5,3.5)" s) ∧
      ofQuery "lat((a))" = .ok ⟨"lat", .slice "(a)", false⟩ ∧
      ∀ s, ¬HasForm "lat((a))" s := by
  have hthree : ofQuery "lat(1.5,2.5,3.5)" = .ok ⟨"lat", .trim "1.5" "2.5,3.5", false⟩ := by rfl
  have hnested : ofQuery "lat((a))" = .ok ⟨"lat", .slice "(a)", false⟩ := by rfl
  refine ⟨hasForm_quotedLatitudes, (ofQuery_hasForm _ _).1 hasForm_quotedLatitudes, hthree,
    fun s hs => ?_, hnested, fun s hs => ?_⟩
  · have hread := (ofQuery_hasForm _ s).1 hs
    rw [hthree] at hread
    cases hread
    exact absurd (hs.undivided "2.5,3.5" (by decide)).1 (by decide)
  · have hread := (ofQuery_hasForm _ s).1 hs
    rw [hnested] at hread
    cases hread
    exact absurd (hs.undivided "(a)" (by decide)).2.1 (by decide)

theorem toList_toQuery (s : Subset) :
    s.toQuery.toList = s.dimension.toList ++ '(' :: (s.selection.inner ++ [')']) := by
  obtain ⟨dimension, selection, kind⟩ := s
  cases selection <;> simp [toQuery, Selection.inner, toString]

/-- A subset that some text spells is spelled by the text that is written of it. -/
theorem Spells.toQuery (h : Spells text s) : Spells s.toQuery s := by
  obtain ⟨name, raw, hparts, hdimension, -⟩ := h.parts
  have hfree : '(' ∉ s.dimension.toList := by
    rw [← hdimension, Text.toList_trim, String.toList_ofList]
    exact fun hc => hparts.free (Text.mem_of_mem_trimBy hc)
  refine ⟨⟨s.dimension.toList, s.selection, ⟨⟨[], s.toList_toQuery, by simp⟩, hfree⟩, ?_, ?_⟩,
    h.named, h.bounds⟩
  · rw [String.ofList_toList, ← hdimension, Text.trim_trim]
  · exact Selection.map_eq_self fun b hb => (h.bounds b hb).1.clean

theorem ofQuery_toQuery (h : ofQuery text = .ok s) : ofQuery s.toQuery = .ok s := by
  rw [ofQuery_eq_ok_iff_spells] at h ⊢
  exact ⟨h.1.toQuery, h.2⟩

/-- The text that is written of a subset is a normal form: it is read as this subset, is written
again as it is, and tells the subset from all others that are read. -/
theorem toQuery_normal (h : ofQuery text = .ok s) :
    ofQuery s.toQuery = .ok s ∧ (ofQuery s.toQuery).map toQuery = .ok s.toQuery ∧
      ∀ text' s', ofQuery text' = .ok s' → (s'.toQuery = s.toQuery ↔ s' = s) := by
  have hself := ofQuery_toQuery h
  refine ⟨hself, by rw [hself]; rfl, fun text' s' h' => ⟨fun heq => ?_, fun heq => by rw [heq]⟩⟩
  have hself' := ofQuery_toQuery h'
  rw [heq, hself] at hself'
  exact (Except.ok.inj hself').symm

/-- A name with a parenthesis, bounds with a parenthesis and with a comma, and quotes of both kinds.
-/
theorem toQuery_normal_station :
    let s : Subset := ⟨"a)b", .trim "(1;" "x,y", false⟩
    ofQuery "a)b\u3000( \"'(1;\" , 'x,y' ) " = .ok s ∧ s.toQuery = "a)b((1;,x,y)" ∧
      ofQuery s.toQuery = .ok s ∧ (ofQuery s.toQuery).map toQuery = .ok s.toQuery ∧
      ∀ text' s', ofQuery text' = .ok s' → (s'.toQuery = s.toQuery ↔ s' = s) := by
  have hread : ofQuery "a)b\u3000( \"'(1;\" , 'x,y' ) " =
      .ok ⟨"a)b", .trim "(1;" "x,y", false⟩ := by rfl
  exact ⟨hread, by decide, toQuery_normal hread⟩

end Subset

end CoverageAccess
