import CoverageAccess.Proofs.Text.Trim
import CoverageAccess.Text.Split
/-!
# Pieces of texts

A character of the class cuts a text into two whose pieces are independent of each other
(`split_append_cons`). Everything about words follows from that: blanks around a text do not matter,
and words with blanks between them are found again (`words_join`), whatever characters they are made
of.
-/

namespace CoverageAccess

namespace Text

variable {p : Char → Bool} {s t : List Char} {c : Char}

/-- A text that holds something, and no blanks. -/
structure IsWord (w : String) : Prop where
  ne_empty : w ≠ ""
  visible : ∀ c ∈ w.toList, isBlank c = false

instance (w : String) : Decidable (IsWord w) :=
  decidable_of_iff (w ≠ "" ∧ ∀ c ∈ w.toList, isBlank c = false)
    ⟨fun h => ⟨h.1, h.2⟩, fun h => ⟨h.ne_empty, h.visible⟩⟩

theorem split_of_forall (hs : ∀ d ∈ s, p d = false) : split p s = [s] := by
  induction s with
  | nil => rfl
  | cons d s ih =>
      have hd := hs d List.mem_cons_self
      rw [split, hd, ih fun e he => hs e (List.mem_cons_of_mem d he)]
      rfl

/-- A character of the class cuts a text in two. -/
theorem split_append_cons (s t : List Char) (hc : p c = true) :
    split p (s ++ c :: t) = split p s ++ split p t := by
  induction s with
  | nil => rw [List.nil_append, split_nil, split, if_pos hc, List.singleton_append]
  | cons d s ih =>
      rw [List.cons_append, split, split, ih]
      split
      · rfl
      · obtain ⟨w, ws, hsplit⟩ := List.exists_cons_of_ne_nil (split_ne_nil p s)
        rw [hsplit]
        rfl

theorem cut?_of_forall (hs : ∀ d ∈ s, p d = false) : cut? p s = none := by
  induction s with
  | nil => rfl
  | cons d s ih =>
      have hd := hs d List.mem_cons_self
      rw [cut?, hd, ih fun e he => hs e (List.mem_cons_of_mem d he)]
      rfl

theorem cut?_append_cons (hs : ∀ d ∈ s, p d = false) (hc : p c = true) :
    cut? p (s ++ c :: t) = some (s, t) := by
  induction s with
  | nil => rw [List.nil_append, cut?, if_pos hc]
  | cons d s ih =>
      have hd := hs d List.mem_cons_self
      rw [List.cons_append, cut?, hd, ih fun e he => hs e (List.mem_cons_of_mem d he)]
      rfl

/-- A text is cut at its first character of the class. -/
theorem exists_of_cut? {a b : List Char} (h : cut? p s = some (a, b)) :
    ∃ c, p c = true ∧ s = a ++ c :: b ∧ ∀ d ∈ a, p d = false := by
  induction s generalizing a with
  | nil => cases h
  | cons d s ih =>
      rw [cut?] at h
      split at h
      next hd =>
        cases h
        exact ⟨d, hd, rfl, by simp⟩
      next hd =>
        obtain ⟨⟨a', b'⟩, hcut, heq⟩ := Option.map_eq_some_iff.1 h
        cases heq
        obtain ⟨c, hc, rfl, ha⟩ := ih hcut
        exact ⟨c, hc, rfl, List.forall_mem_cons.2 ⟨Bool.eq_false_iff.2 hd, ha⟩⟩

theorem cut?_eq_none_iff : cut? p s = none ↔ ∀ d ∈ s, p d = false := by
  refine ⟨fun h d hd => ?_, cut?_of_forall⟩
  obtain ⟨a, b, rfl⟩ := List.append_of_mem hd
  induction a with
  | nil =>
      rw [List.nil_append, cut?] at h
      split at h
      next => cases h
      next hd => exact Bool.eq_false_iff.2 hd
  | cons c a ih =>
      rw [List.cons_append, cut?] at h
      split at h
      next => cases h
      next => exact ih (Option.map_eq_none_iff.1 h) (List.mem_append_right _ List.mem_cons_self)

/-- Cutting depends on the class only where the text has characters. -/
theorem cut?_congr {q : Char → Bool} (h : ∀ d ∈ s, p d = q d) : cut? p s = cut? q s := by
  induction s with
  | nil => rfl
  | cons d s ih =>
      obtain ⟨hd, hs⟩ := List.forall_mem_cons.1 h
      rw [cut?, cut?, hd, ih hs]

theorem mem_of_mem_split {w : List Char} (hw : w ∈ split p s) : ∀ d ∈ w, d ∈ s := by
  induction s generalizing w with
  | nil =>
      rw [split_nil, List.mem_singleton] at hw
      rw [hw]
      exact fun d hd => hd
  | cons c s ih =>
      rw [split] at hw
      split at hw
      · rcases List.mem_cons.1 hw with rfl | hw
        · simp
        · exact fun d hd => List.mem_cons_of_mem c (ih hw d hd)
      · obtain ⟨v, vs, hsplit⟩ := List.exists_cons_of_ne_nil (split_ne_nil p s)
        rw [hsplit] at hw
        rcases List.mem_cons.1 hw with rfl | hw
        · refine List.forall_mem_cons.2 ⟨List.mem_cons_self, fun d hd => List.mem_cons_of_mem c ?_⟩
          exact ih (hsplit ▸ List.mem_cons_self) d hd
        · exact fun d hd => List.mem_cons_of_mem c (ih (hsplit ▸ List.mem_cons_of_mem v hw) d hd)

theorem not_mem_of_mem_split {w : List Char} (hw : w ∈ split p s) : ∀ d ∈ w, p d = false := by
  induction s generalizing w with
  | nil =>
      rw [split_nil, List.mem_singleton] at hw
      simp [hw]
  | cons c s ih =>
      rw [split] at hw
      split at hw
      · rcases List.mem_cons.1 hw with rfl | hw
        · simp
        · exact ih hw
      next hc =>
        obtain ⟨v, vs, hsplit⟩ := List.exists_cons_of_ne_nil (split_ne_nil p s)
        rw [hsplit] at hw ih
        rcases List.mem_cons.1 hw with rfl | hw
        · exact List.forall_mem_cons.2 ⟨Bool.eq_false_iff.2 hc, ih List.mem_cons_self⟩
        · exact ih (List.mem_cons_of_mem v hw)

theorem not_mem_of_mem_fields {sep : Char} {s w : String} (hw : w ∈ fields sep s) :
    sep ∉ w.toList := by
  obtain ⟨l, hl, rfl⟩ := List.mem_map.1 hw
  rw [String.toList_ofList]
  intro hsep
  exact absurd (not_mem_of_mem_split hl sep hsep) (by simp)

/-- A character that is not of the class begins the first piece. -/
theorem exists_split_cons (s : List Char) (hc : p c = false) :
    ∃ w ws, split p (c :: s) = (c :: w) :: ws := by
  obtain ⟨w, ws, hsplit⟩ := List.exists_cons_of_ne_nil (split_ne_nil p s)
  refine ⟨w, ws, ?_⟩
  rw [split, if_neg (Bool.eq_false_iff.1 hc), hsplit]

theorem length_split (p : Char → Bool) (s : List Char) : (split p s).length = s.countP p + 1 := by
  induction s with
  | nil => rfl
  | cons c s ih =>
      rw [split, List.countP_cons]
      split
      next => rw [List.length_cons, ih]
      next =>
        obtain ⟨v, vs, hsplit⟩ := List.exists_cons_of_ne_nil (split_ne_nil p s)
        rw [hsplit] at ih ⊢
        exact ih

/-- The pieces with the separator between them are the text again. -/
theorem join_fields (sep : Char) (s : String) :
    join (String.singleton sep) (fields sep s) = s := by
  have hjoin (l : List Char) : (join (String.singleton sep)
      ((split (· == sep) l).map String.ofList)).toList = l := by
    induction l with
    | nil => rfl
    | cons c l ih =>
        obtain ⟨w, ws, hsplit⟩ := List.exists_cons_of_ne_nil (split_ne_nil (· == sep) l)
        rw [hsplit, List.map_cons] at ih
        rw [split, hsplit]
        split
        next hc =>
          rw [List.map_cons, List.map_cons, join, String.toList_append, ih]
          simp [beq_iff_eq.1 hc]
        next =>
          rw [List.map_cons]
          cases ws with
          | nil => simpa using ih
          | cons v vs =>
              rw [List.map_cons, join, String.toList_append, String.toList_append] at ih ⊢
              rw [← ih]
              simp
  rw [← String.toList_inj, fields, hjoin]

/-- Texts without characters of the class, with one such character between neighbours, are the pieces
again. -/
theorem split_join {sep : String} {ws : List String} (hsep : sep.toList = [c]) (hc : p c = true)
    (hne : ws ≠ []) (h : ∀ w ∈ ws, ∀ d ∈ w.toList, p d = false) :
    split p (join sep ws).toList = ws.map String.toList := by
  induction ws with
  | nil => exact absurd rfl hne
  | cons w ws ih =>
      have hw := split_of_forall (h w List.mem_cons_self)
      cases ws with
      | nil => exact hw
      | cons v ws =>
          have hrest := ih (List.cons_ne_nil v ws) fun u hu => h u (List.mem_cons_of_mem w hu)
          have htext : (join sep (w :: v :: ws)).toList =
              w.toList ++ c :: (join sep (v :: ws)).toList := by
            simp [join, hsep]
          rw [htext, split_append_cons _ _ hc, hw, hrest]
          rfl

theorem mem_join {sep : String} {ws : List String} {d : Char} (h : d ∈ (join sep ws).toList) :
    d ∈ sep.toList ∨ ∃ w ∈ ws, d ∈ w.toList := by
  induction ws with
  | nil => cases h
  | cons w ws ih =>
      cases ws with
      | nil => exact .inr ⟨w, List.mem_cons_self, h⟩
      | cons v ws =>
          rw [join, String.toList_append, String.toList_append, List.mem_append,
            List.mem_append] at h
          rcases h with (h | h) | h
          · exact .inr ⟨w, List.mem_cons_self, h⟩
          · exact .inl h
          · exact (ih h).imp_right fun ⟨u, hu, hd⟩ => ⟨u, List.mem_cons_of_mem w hu, hd⟩

theorem cutLast?_append_cons (ht : ∀ d ∈ t, p d = false) (hc : p c = true) :
    cutLast? p (s ++ c :: t) = some (s, t) := by
  have hreverse : (s ++ c :: t).reverse = t.reverse ++ c :: s.reverse := by simp
  rw [cutLast?, hreverse, cut?_append_cons (by simpa using ht) hc]
  simp

/-- A text is cut at its last character of the class. -/
theorem exists_of_cutLast? {a b : List Char} (h : cutLast? p s = some (a, b)) :
    ∃ c, p c = true ∧ s = a ++ c :: b ∧ ∀ d ∈ b, p d = false := by
  obtain ⟨⟨b', a'⟩, hcut, heq⟩ := Option.map_eq_some_iff.1 h
  cases heq
  obtain ⟨c, hc, hs, hb⟩ := exists_of_cut? hcut
  refine ⟨c, hc, ?_, fun d hd => hb d (List.mem_reverse.1 hd)⟩
  rw [← List.reverse_reverse s, hs]
  simp

theorem cut?_beq_eq_some_iff {a b : List Char} :
    cut? (· == c) s = some (a, b) ↔ s = a ++ c :: b ∧ c ∉ a := by
  constructor
  · intro h
    obtain ⟨d, hd, hs, ha⟩ := exists_of_cut? h
    rw [beq_iff_eq.1 hd] at hs
    exact ⟨hs, fun hc => absurd (ha c hc) (by simp)⟩
  · rintro ⟨rfl, hc⟩
    refine cut?_append_cons (fun d hd => beq_eq_false_iff_ne.2 ?_) (beq_self_eq_true c)
    rintro rfl
    exact hc hd

theorem cut?_beq_eq_none_iff : cut? (· == c) s = none ↔ c ∉ s := by
  rw [cut?_eq_none_iff]
  constructor
  · exact fun h hc => absurd (h c hc) (by simp)
  · rintro h d hd
    refine beq_eq_false_iff_ne.2 ?_
    rintro rfl
    exact h hd

theorem cutLast?_beq_eq_some_iff {a b : List Char} :
    cutLast? (· == c) s = some (a, b) ↔ s = a ++ c :: b ∧ c ∉ b := by
  constructor
  · intro h
    obtain ⟨d, hd, hs, hb⟩ := exists_of_cutLast? h
    rw [beq_iff_eq.1 hd] at hs
    exact ⟨hs, fun hc => absurd (hb c hc) (by simp)⟩
  · rintro ⟨rfl, hc⟩
    refine cutLast?_append_cons (fun d hd => beq_eq_false_iff_ne.2 ?_) (beq_self_eq_true c)
    rintro rfl
    exact hc hd

theorem dropTail?_eq_some_iff {tail rest : List Char} :
    dropTail? tail s = some rest ↔ s = rest ++ tail := by
  rw [dropTail?, Option.map_eq_some_iff]
  constructor
  · rintro ⟨r, hr, rfl⟩
    rw [dropStart?_eq_some_iff] at hr
    rw [← List.reverse_reverse s, hr]
    simp
  · rintro rfl
    exact ⟨rest.reverse, dropStart?_eq_some_iff.2 (List.reverse_append ..), List.reverse_reverse rest⟩

/-- Two texts put together have the pieces of both, but for the two that meet. -/
theorem split_append (p : Char → Bool) (s t : List Char) :
    ∃ before last first after, split p s = before ++ [last] ∧ split p t = first :: after ∧
      split p (s ++ t) = before ++ (last ++ first) :: after := by
  obtain ⟨first, after, ht⟩ := List.exists_cons_of_ne_nil (split_ne_nil p t)
  induction s with
  | nil => exact ⟨[], [], first, after, rfl, ht, ht⟩
  | cons c s ih =>
      obtain ⟨before, last, first', after', hs, ht', happend⟩ := ih
      by_cases hc : p c = true
      · refine ⟨[] :: before, last, first', after', ?_, ht', ?_⟩
        · rw [split, if_pos hc, hs, List.cons_append]
        · rw [List.cons_append, split, if_pos hc, happend, List.cons_append]
      · cases before with
        | nil =>
            refine ⟨[], c :: last, first', after', ?_, ht', ?_⟩
            · rw [split, if_neg hc, hs]
              rfl
            · rw [List.cons_append, split, if_neg hc, happend]
              rfl
        | cons w ws =>
            refine ⟨(c :: w) :: ws, last, first', after', ?_, ht', ?_⟩
            · rw [split, if_neg hc, hs]
              rfl
            · rw [List.cons_append, split, if_neg hc, happend]
              rfl

section Words

variable {a b : List Char} {w : String} {ws : List String}

theorem wordRuns_append_cons (s t : List Char) (hc : isBlank c = true) :
    wordRuns (s ++ c :: t) = wordRuns s ++ wordRuns t := by
  rw [wordRuns, split_append_cons s t hc, List.filter_append]
  rfl

theorem wordRuns_blanks_append (ha : ∀ c ∈ a, isBlank c = true) :
    wordRuns (a ++ s) = wordRuns s := by
  induction a with
  | nil => rfl
  | cons c a ih =>
      rw [← ih fun d hd => ha d (List.mem_cons_of_mem c hd)]
      exact wordRuns_append_cons [] (a ++ s) (ha c List.mem_cons_self)

theorem wordRuns_append_blanks (hb : ∀ c ∈ b, isBlank c = true) :
    wordRuns (s ++ b) = wordRuns s := by
  cases b with
  | nil => rw [List.append_nil]
  | cons c b =>
      have hblank : wordRuns b = [] := by
        rw [← List.append_nil b, wordRuns_blanks_append fun d hd => hb d (List.mem_cons_of_mem c hd)]
        rfl
      rw [wordRuns_append_cons s b (hb c List.mem_cons_self), hblank, List.append_nil]

/-- Trimming changes no word. -/
@[simp] theorem words_trim (s : String) : words (trim s) = words s := by
  obtain ⟨a, b, hs, ha, hb⟩ := eq_append_trimBy isBlank s.toList
  rw [words, words, toList_trim, hs, wordRuns_append_blanks hb, wordRuns_blanks_append ha,
    trimBy_append_append ha hb, trimBy_trimBy]

theorem wordRuns_of_isWord (hw : IsWord w) : wordRuns w.toList = [w.toList] := by
  have hne : w.toList ≠ [] := fun hnil => hw.ne_empty (String.toList_eq_nil_iff.1 hnil)
  rw [wordRuns, split_of_forall hw.visible, List.filter_singleton, List.isEmpty_eq_false_iff.2 hne]
  rfl

theorem wordRuns_join (h : ∀ w ∈ ws, IsWord w) :
    wordRuns (join " " ws).toList = ws.map String.toList := by
  induction ws with
  | nil => rfl
  | cons w ws ih =>
      have hw := h w List.mem_cons_self
      have hrest := ih fun v hv => h v (List.mem_cons_of_mem w hv)
      cases ws with
      | nil => exact wordRuns_of_isWord hw
      | cons v ws =>
          have htext : (join " " (w :: v :: ws)).toList =
              w.toList ++ ' ' :: (join " " (v :: ws)).toList := by
            simp [join]
          rw [htext, wordRuns_append_cons _ _ (by decide), wordRuns_of_isWord hw, hrest]
          rfl

/-- Words with blanks between them are found again. -/
theorem words_join (h : ∀ w ∈ ws, IsWord w) : words (join " " ws) = ws := by
  rw [words, wordRuns_join h, List.map_map]
  simp [Function.comp_def]

end Words

end Text

end CoverageAccess
