import CoverageAccess.Markup.Node
import CoverageAccess.Markup.Token
import CoverageAccess.Proofs.Markup.Escape
import Mathlib.Data.List.Nodup
/-!
# Written tags

The tokens of what a node writes besides its content: a start tag with its attributes is one token,
and so is an end tag. Names must be ones that can stand in a tag; the values of attributes may hold
any characters. Attributes that declare namespaces leave nothing.
-/

namespace CoverageAccess

namespace Markup

open Text

/-- A character of a tag or of the name of an attribute. -/
def isNameChar (c : Char) : Bool :=
  !isLineBlank c && !isDelimiter c && c != '/' && c != '=' && c != '!' && c != '?'

/-- A name that can stand in a tag. -/
structure IsName (name : String) : Prop where
  ne_empty : name ≠ ""
  chars : ∀ c ∈ name.toList, isNameChar c = true

instance (name : String) : Decidable (IsName name) :=
  decidable_of_iff (name ≠ "" ∧ ∀ c ∈ name.toList, isNameChar c = true)
    ⟨fun h => ⟨h.1, h.2⟩, fun h => ⟨h.ne_empty, h.chars⟩⟩

/-- The attributes of one tag: their names can stand in it and differ from each other. -/
structure AreAttributes (as : List (String × String)) : Prop where
  names : ∀ a ∈ as, IsName a.1
  nodup : (as.map Prod.fst).Nodup

instance (as : List (String × String)) : Decidable (AreAttributes as) :=
  decidable_of_iff ((∀ a ∈ as, IsName a.1) ∧ (as.map Prod.fst).Nodup)
    ⟨fun h => ⟨h.1, h.2⟩, fun h => ⟨h.names, h.nodup⟩⟩

/-- The attributes that declare no namespace. -/
def withoutNamespaces (as : List (String × String)) : List (String × String) :=
  as.filter fun a => !declaresNamespace a.1.toList

/-- An attribute as a token holds it. -/
def rawAttribute (a : String × String) : RawAttribute :=
  (a.1.toList, a.2.toList)

variable {name : String}

theorem isNameChar_spec {c : Char} (h : isNameChar c = true) :
    isLineBlank c = false ∧ isDelimiter c = false ∧ c ≠ '/' ∧ c ≠ '=' ∧ c ≠ '!' ∧ c ≠ '?' := by
  simpa [isNameChar, and_assoc] using h

theorem ne_of_not_isDelimiter {c : Char} (h : isDelimiter c = false) :
    c ≠ '<' ∧ c ≠ '>' ∧ c ≠ '"' ∧ c ≠ '\'' := by
  simpa [isDelimiter, and_assoc] using h

theorem IsName.toList_ne_nil (h : IsName name) : name.toList ≠ [] := by
  intro hn
  exact h.ne_empty (String.toList_eq_nil_iff.1 hn)

theorem IsName.exists_cons (h : IsName name) :
    ∃ c s, name.toList = c :: s ∧ isNameChar c = true ∧ ∀ d ∈ s, isNameChar d = true := by
  cases hs : name.toList with
  | nil => exact absurd hs h.toList_ne_nil
  | cons c s =>
      have hchars := h.chars
      rw [hs] at hchars
      exact ⟨c, s, rfl, hchars c List.mem_cons_self, fun d hd => hchars d (List.mem_cons_of_mem _ hd)⟩

section Attributes

theorem attributesFrom?_name {s : List Char} (h : ∀ c ∈ s, isNameChar c = true)
    (read t : List Char) :
    attributesFrom? (.name read) (s ++ '=' :: t) =
      attributesFrom? (.equals (read.reverse ++ s)) t := by
  induction s generalizing read with
  | nil => simp [attributesFrom?]
  | cons c s ih =>
      obtain ⟨hblank, -, -, heq, -, -⟩ := isNameChar_spec (h c List.mem_cons_self)
      rw [List.cons_append, attributesFrom?, if_neg heq, if_neg (by simp [hblank]),
        ih fun d hd => h d (List.mem_cons_of_mem _ hd)]
      simp

theorem attributesFrom?_value {s : List Char} (h : '"' ∉ s) (name read t : List Char) :
    attributesFrom? (.value name '"' read) (s ++ '"' :: t) =
      (attributesFrom? .gap t).map ((name, read.reverse ++ s) :: ·) := by
  induction s generalizing read with
  | nil => simp [attributesFrom?]
  | cons c s ih =>
      have hc : c ≠ '"' := fun e => h (e ▸ List.mem_cons_self)
      rw [List.cons_append, attributesFrom?, if_neg hc,
        ih fun hs => h (List.mem_cons_of_mem _ hs)]
      simp

theorem quote_not_mem_escape (s : List Char) : '"' ∉ escape s := by
  intro h
  exact absurd (not_isDelimiter_of_mem_escape h) (by decide)

theorem toList_attributeChars (a : String × String) (t : List Char) :
    Node.attributeChars a ++ t =
      ' ' :: (a.1.toList ++ '=' :: '"' :: (escape a.2.toList ++ '"' :: t)) := by
  simp [Node.attributeChars]

theorem attributesFrom?_attributeChars {a : String × String} (h : IsName a.1) (t : List Char) :
    attributesFrom? .gap (Node.attributeChars a ++ t) =
      (attributesFrom? .gap t).map ((a.1.toList, escape a.2.toList) :: ·) := by
  obtain ⟨c, s, hs, hc, hchars⟩ := h.exists_cons
  obtain ⟨hblank, -⟩ := isNameChar_spec hc
  rw [toList_attributeChars, hs, attributesFrom?, if_pos (by decide), List.cons_append,
    attributesFrom?, if_neg (by simp [hblank]), attributesFrom?_name hchars, attributesFrom?,
    if_neg (by decide), if_pos (.inl rfl), attributesFrom?_value (quote_not_mem_escape _)]
  rfl

theorem attributesFrom?_flatMap {as : List (String × String)} (h : ∀ a ∈ as, IsName a.1) :
    attributesFrom? .gap (as.flatMap Node.attributeChars) =
      some (as.map fun a => (a.1.toList, escape a.2.toList)) := by
  induction as with
  | nil => rfl
  | cons a as ih =>
      rw [List.flatMap_cons, attributesFrom?_attributeChars (h a List.mem_cons_self),
        ih fun b hb => h b (List.mem_cons_of_mem _ hb)]
      rfl

theorem mapM_unescape? (as : List (String × String)) :
    ((as.map fun a => (a.1.toList, escape a.2.toList)).mapM fun a : RawAttribute =>
      (unescape? a.2).map fun v => (a.1, v)) = some (as.map rawAttribute) := by
  induction as with
  | nil => rfl
  | cons a as ih =>
      rw [List.map_cons, List.mapM_cons, ih, unescape?_escape]
      rfl

/-- Written attributes are read back, without those that declare namespaces. -/
theorem attributes_flatMap {as : List (String × String)} (h : AreAttributes as) :
    attributes (as.flatMap Node.attributeChars) =
      .ok ((withoutNamespaces as).map rawAttribute) := by
  have hnodup : ((as.map fun a => (a.1.toList, escape a.2.toList)).map Prod.fst).Nodup := by
    have hinj : Function.Injective String.toList := fun _ _ => String.toList_inj.1
    have hmap := (List.nodup_map_iff hinj).2 h.nodup
    rw [List.map_map] at hmap ⊢
    exact hmap
  have hfilter : (as.map fun a => (a.1.toList, escape a.2.toList)).filter
      (fun a => !declaresNamespace a.1) =
        (withoutNamespaces as).map fun a => (a.1.toList, escape a.2.toList) := by
    rw [List.filter_map]
    rfl
  rw [attributes, attributesFrom?_flatMap h.names]
  simp only
  rw [if_pos hnodup, hfilter, mapM_unescape?]

end Attributes

section Tags

theorem tokensFrom_text {s : List Char} (h : '<' ∉ s) (read t : List Char) :
    tokensFrom (.text read) (s ++ t) = tokensFrom (.text (s.reverse ++ read)) t := by
  induction s generalizing read with
  | nil => rfl
  | cons c s ih =>
      have hc : c ≠ '<' := fun e => h (e ▸ List.mem_cons_self)
      rw [List.cons_append, tokensFrom, if_neg hc, ih fun hs => h (List.mem_cons_of_mem _ hs)]
      simp

theorem tokensFrom_text_open (read t : List Char) :
    tokensFrom (.text read) ('<' :: t) =
      textTokens read.reverse ++ tokensFrom (.text []) ('<' :: t) := by
  rw [tokensFrom, if_pos rfl, tokensFrom, if_pos rfl]
  rfl

theorem tokensFrom_tag {s : List Char} (h : ∀ c ∈ s, c ≠ '>' ∧ c ≠ '"' ∧ c ≠ '\'')
    (read t : List Char) :
    tokensFrom (.tag none read) (s ++ t) = tokensFrom (.tag none (s.reverse ++ read)) t := by
  induction s generalizing read with
  | nil => rfl
  | cons c s ih =>
      obtain ⟨hgt, hquot, hapos⟩ := h c List.mem_cons_self
      have hquote : quoteAfter none c = none := by simp [quoteAfter, hquot, hapos]
      rw [List.cons_append, tokensFrom, if_neg (by simp [hgt]), hquote,
        ih fun d hd => h d (List.mem_cons_of_mem _ hd)]
      simp

theorem tokensFrom_quoted {s : List Char} (h : '"' ∉ s) (read t : List Char) :
    tokensFrom (.tag (some '"') read) (s ++ '"' :: t) =
      tokensFrom (.tag none ('"' :: s.reverse ++ read)) t := by
  induction s generalizing read with
  | nil => simp [tokensFrom, quoteAfter]
  | cons c s ih =>
      have hc : c ≠ '"' := fun e => h (e ▸ List.mem_cons_self)
      have hquote : quoteAfter (some '"') c = some '"' := by simp [quoteAfter, hc]
      rw [List.cons_append, tokensFrom, if_neg (by simp), hquote,
        ih fun hs => h (List.mem_cons_of_mem _ hs)]
      simp

theorem ne_of_mem_name {s : List Char} (h : ∀ c ∈ s, isNameChar c = true) :
    ∀ c ∈ s, c ≠ '>' ∧ c ≠ '"' ∧ c ≠ '\'' := by
  intro c hc
  obtain ⟨-, hd, -⟩ := isNameChar_spec (h c hc)
  exact (ne_of_not_isDelimiter hd).2

/-- Written attributes leave the reader of a tag outside of quotations. -/
theorem tokensFrom_attributes {as : List (String × String)} (h : ∀ a ∈ as, IsName a.1)
    (read t : List Char) :
    tokensFrom (.tag none read) (as.flatMap Node.attributeChars ++ t) =
      tokensFrom (.tag none ((as.flatMap Node.attributeChars).reverse ++ read)) t := by
  induction as generalizing read with
  | nil => rfl
  | cons a as ih =>
      have hname := ne_of_mem_name (h a List.mem_cons_self).chars
      have hstart : ∀ c ∈ ' ' :: a.1.toList ++ ['='], c ≠ '>' ∧ c ≠ '"' ∧ c ≠ '\'' := by
        intro c hc
        rcases List.mem_append.1 hc with hc | hc
        · rcases List.mem_cons.1 hc with rfl | hc
          · decide
          · exact hname c hc
        · rw [List.mem_singleton.1 hc]
          decide
      have hsplit : Node.attributeChars a ++ (as.flatMap Node.attributeChars ++ t) =
          (' ' :: a.1.toList ++ ['=']) ++
            '"' :: (escape a.2.toList ++ '"' :: (as.flatMap Node.attributeChars ++ t)) := by
        rw [toList_attributeChars]
        simp
      rw [List.flatMap_cons, List.append_assoc, hsplit, tokensFrom_tag hstart, tokensFrom,
        if_neg (by simp)]
      change tokensFrom (.tag (some '"') _) _ = _
      rw [tokensFrom_quoted (quote_not_mem_escape _), ih fun b hb => h b (List.mem_cons_of_mem _ hb)]
      simp [Node.attributeChars]

theorem getLast?_tag {tag : String} {as : List (String × String)} (htag : IsName tag) :
    (tag.toList ++ as.flatMap Node.attributeChars).getLast? ≠ some '/' := by
  rcases List.eq_nil_or_concat as with rfl | ⟨as, a, rfl⟩
  · intro h
    rw [List.flatMap_nil, List.append_nil] at h
    obtain ⟨-, -, hslash, -⟩ := isNameChar_spec (htag.chars _ (List.mem_of_getLast? h))
    exact hslash rfl
  · have hend : tag.toList ++ (as.concat a).flatMap Node.attributeChars =
        (tag.toList ++ as.flatMap Node.attributeChars ++
          (' ' :: a.1.toList ++ "=\"".toList ++ escape a.2.toList)) ++ ['"'] := by
      simp [Node.attributeChars]
    rw [hend, List.getLast?_concat]
    decide

/-- What stands between the angle brackets of a written start tag is a start token. -/
theorem tagToken_start {tag : String} {as : List (String × String)} (htag : IsName tag)
    (has : AreAttributes as) :
    tagToken (tag.toList ++ as.flatMap Node.attributeChars) =
      .start tag.toList ((withoutNamespaces as).map rawAttribute) := by
  have hname : (tag.toList ++ as.flatMap Node.attributeChars).takeWhile
      (fun c => !isLineBlank c) = tag.toList := by
    have hpos : ∀ c ∈ tag.toList, (!isLineBlank c) = true := by
      intro c hc
      simp [(isNameChar_spec (htag.chars c hc)).1]
    rw [List.takeWhile_append_of_pos hpos]
    cases as with
    | nil => simp
    | cons a as =>
        rw [List.flatMap_cons, toList_attributeChars, List.takeWhile_cons_of_neg (by decide),
          List.append_nil]
  rw [tagToken, if_neg (getLast?_tag htag)]
  simp only [hname, List.drop_left]
  rw [attributes_flatMap has]

/-- A written start tag is one token. -/
theorem tokensFrom_startTag {tag : String} {as : List (String × String)} (htag : IsName tag)
    (has : AreAttributes as) (t : List Char) :
    tokensFrom (.text []) ('<' :: (tag.toList ++ as.flatMap Node.attributeChars ++ '>' :: t)) =
      .start tag.toList ((withoutNamespaces as).map rawAttribute) :: tokensFrom (.text []) t := by
  obtain ⟨c, s, hs, hc, hchars⟩ := htag.exists_cons
  obtain ⟨-, hd, hslash, -, hbang, hmark⟩ := isNameChar_spec hc
  obtain ⟨-, hgt, hquot, hapos⟩ := ne_of_not_isDelimiter hd
  have hquote : quoteAfter none c = none := by simp [quoteAfter, hquot, hapos]
  have htoken := tagToken_start htag has
  rw [hs, List.cons_append] at htoken
  rw [tokensFrom, if_pos rfl, hs, List.cons_append, List.cons_append, tokensFrom, if_neg hbang,
    if_neg hslash, if_neg hmark, if_neg hgt, hquote, List.append_assoc,
    tokensFrom_tag (ne_of_mem_name hchars), tokensFrom_attributes has.names, tokensFrom,
    if_pos ⟨rfl, rfl⟩, ← htoken]
  simp [textTokens]

theorem tokensFrom_endTag {tag : String} (htag : IsName tag) (t : List Char) :
    tokensFrom .opened ('/' :: (tag.toList ++ '>' :: t)) =
      .close tag.toList :: tokensFrom (.text []) t := by
  have hread (s : List Char) (h : ∀ c ∈ s, c ≠ '>') (read : List Char) :
      tokensFrom (.close read) (s ++ '>' :: t) =
        closeToken (read.reverse ++ s) :: tokensFrom (.text []) t := by
    induction s generalizing read with
    | nil => simp [tokensFrom]
    | cons c s ih =>
        rw [List.cons_append, tokensFrom, if_neg (h c List.mem_cons_self),
          ih fun d hd => h d (List.mem_cons_of_mem _ hd)]
        simp
  have hgt : ∀ c ∈ tag.toList, c ≠ '>' := fun c hc => (ne_of_mem_name htag.chars c hc).1
  have hblank : ∀ c ∈ tag.toList, isLineBlank c = false :=
    fun c hc => (isNameChar_spec (htag.chars c hc)).1
  have hall : tag.toList.all isLineBlank = false := by
    obtain ⟨c, s, hs, hc, -⟩ := htag.exists_cons
    simp [hs, (isNameChar_spec hc).1]
  have htrim : trimEnd isLineBlank tag.toList = tag.toList := by
    rw [trimEnd_eq_rdropWhile, List.rdropWhile_eq_self_iff]
    intro hne
    simp [hblank _ (List.getLast_mem hne)]
  rw [tokensFrom, if_neg (by decide), if_pos rfl, hread _ hgt, closeToken, List.reverse_nil,
    List.nil_append, hall, htrim]
  rfl

end Tags

end Markup

end CoverageAccess
