import CoverageAccess.Proofs.Outcome
import CoverageAccess.Proofs.Text.Split
import CoverageAccess.Scaling.Query
/-!
# Lists of axes with values

`IsAxisList` is the grammar of the lists that a query holds for single axes: items `axis(value)` with
a comma between neighbours, and blanks around axes, values and commas. The reader takes one item after
the other from the text (`axisRound`) and so ends at the latest when the text is used up; it accepts
exactly the lists of the grammar, up to blanks at the ends, and answers their items in order. The main
result is `axisList_reads`.
-/

namespace CoverageAccess

namespace Scaling

open Text

/-- The text is `axis(value)` for the item, up to blanks around axis and value. Neither of them is
blank, the axis holds no parenthesis and the value no closing one. -/
structure IsAxisItem (s : List Char) (item : String × String) : Prop where
  parts : ∃ axis value, s = axis ++ '(' :: (value ++ [')']) ∧
    '(' ∉ axis ∧ ')' ∉ axis ∧ ')' ∉ value ∧
    Text.trim (.ofList axis) = item.1 ∧ Text.trim (.ofList value) = item.2
  axis_ne_empty : item.1 ≠ ""
  value_ne_empty : item.2 ≠ ""

/-- The text consists of the items, in order, with a comma between neighbours and blanks around the
comma. -/
inductive IsAxisList : List Char → List (String × String) → Prop
  | single {s : List Char} {item : String × String} (h : IsAxisItem s item) : IsAxisList s [item]
  | cons {s a b t : List Char} {item : String × String} {items : List (String × String)}
      (h : IsAxisItem s item) (ha : ∀ c ∈ a, isBlank c = true) (hb : ∀ c ∈ b, isBlank c = true)
      (ht : IsAxisList t items) : IsAxisList (s ++ (a ++ ',' :: (b ++ t))) (item :: items)

/-- The text lists the items, with blanks at its ends. -/
def ListsAxes (s : String) (items : List (String × String)) : Prop :=
  ∃ a t b, s.toList = a ++ t ++ b ∧ (∀ c ∈ a, isBlank c = true) ∧ (∀ c ∈ b, isBlank c = true) ∧
    IsAxisList t items

/-- The items as a list is usually written. -/
def axisText (items : List (String × String)) : String :=
  join "," (items.map fun e => e.1 ++ "(" ++ e.2 ++ ")")

/-- What one round of the reader makes of the text that is left. -/
inductive Round where
  | refused
  /-- The item ends the list. -/
  | last (item : String × String)
  /-- After the item and a comma the list goes on. -/
  | more (item : String × String) (rest : List Char)

def axisRound (s : List Char) : Round :=
  match axisItem? s with
  | .none => .refused
  | some (item, rest) =>
    match trimStart isBlank rest with
    | [] => .last item
    | ',' :: more => .more item (trimStart isBlank more)
    | _ => .refused

/-- The reader ends after so many rounds with the given items, or without any. -/
inductive EndsAfter : List Char → Nat → Option (List (String × String)) → Prop
  | refused {s : List Char} (h : axisRound s = .refused) : EndsAfter s 1 .none
  | last {s : List Char} {item : String × String} (h : axisRound s = .last item) :
      EndsAfter s 1 (some [item])
  | more {s rest : List Char} {item : String × String} {n : Nat}
      {items : Option (List (String × String))} (h : axisRound s = .more item rest)
      (hrest : EndsAfter rest n items) : EndsAfter s (n + 1) (items.map (item :: ·))

variable {s t rest : List Char} {item : String × String} {items : List (String × String)}

theorem axisItem?_eq_some_iff :
    axisItem? s = some (item, rest) ↔ ∃ t, IsAxisItem t item ∧ s = t ++ rest := by
  simp only [axisItem?, Option.bind_eq_bind, Option.bind_eq_some_iff, Prod.exists]
  constructor
  · rintro ⟨before, r, hclose, axis, value, hopen, h⟩
    obtain ⟨rfl, hbefore⟩ := cut?_beq_eq_some_iff.1 hclose
    obtain ⟨rfl, haxis⟩ := cut?_beq_eq_some_iff.1 hopen
    split at h
    next => cases h
    next hne =>
      cases h
      obtain ⟨hne, hne'⟩ := not_or.1 hne
      have hfree := fun hc => hbefore (List.mem_append_left _ hc)
      have hfree' := fun hc => hbefore (List.mem_append_right _ (List.mem_cons_of_mem _ hc))
      exact ⟨_, ⟨⟨axis, value, rfl, haxis, hfree, hfree', rfl, rfl⟩, hne, hne'⟩, by simp⟩
  · rintro ⟨t, ⟨⟨axis, value, rfl, haxis, hfree, hfree', hname, hvalue⟩, hne, hne'⟩, rfl⟩
    refine ⟨axis ++ '(' :: value, rest, cut?_beq_eq_some_iff.2 ⟨by simp, ?_⟩, axis, value,
      cut?_beq_eq_some_iff.2 ⟨rfl, haxis⟩, ?_⟩
    · simp [hfree, hfree']
    · rw [hname, hvalue, if_neg (by simp [hne, hne'])]

/-- A round reads the item that the text begins with, and ends if only blanks follow it. -/
theorem axisRound_eq_last_iff :
    axisRound s = .last item ↔
      ∃ t b, s = t ++ b ∧ IsAxisItem t item ∧ ∀ c ∈ b, isBlank c = true := by
  constructor
  · intro h
    unfold axisRound at h
    split at h
    next => cases h
    next item' rest hitem =>
      split at h
      next hrest =>
        cases h
        obtain ⟨t, ht, hs⟩ := axisItem?_eq_some_iff.1 hitem
        exact ⟨t, rest, hs, ht, List.dropWhile_eq_nil_iff.1 hrest⟩
      next => cases h
      next => cases h
  · rintro ⟨t, b, rfl, ht, hb⟩
    have hrest : trimStart isBlank b = [] := List.dropWhile_eq_nil_iff.2 hb
    simp [axisRound, axisItem?_eq_some_iff.2 ⟨t, ht, rfl⟩, hrest]

/-- A round goes on behind the comma after the item, and the blanks behind the comma. -/
theorem axisRound_eq_more_iff :
    axisRound s = .more item rest ↔
      ∃ t a more, s = t ++ (a ++ ',' :: more) ∧ IsAxisItem t item ∧
        (∀ c ∈ a, isBlank c = true) ∧ rest = trimStart isBlank more := by
  constructor
  · intro h
    unfold axisRound at h
    split at h
    next => cases h
    next item' tail hitem =>
      split at h
      next => cases h
      next more htail =>
        cases h
        obtain ⟨t, ht, hs⟩ := axisItem?_eq_some_iff.1 hitem
        obtain ⟨a, htail', ha⟩ := eq_append_trimStart isBlank tail
        exact ⟨t, a, more, by rw [hs, htail', htail], ht, ha, rfl⟩
      next => cases h
  · rintro ⟨t, a, more, rfl, ht, ha, rfl⟩
    have htail : trimStart isBlank (a ++ ',' :: more) = ',' :: more := by
      rw [trimStart, List.dropWhile_append_of_pos ha, List.dropWhile_cons_of_neg (by decide)]
    simp [axisRound, axisItem?_eq_some_iff.2 ⟨t, ht, rfl⟩, htail]

/-- A round that goes on leaves less than there was. -/
theorem length_lt_of_axisRound (h : axisRound s = .more item rest) : rest.length < s.length := by
  obtain ⟨t, a, more, rfl, -, -, rfl⟩ := axisRound_eq_more_iff.1 h
  have hmore : (trimStart isBlank more).length ≤ more.length :=
    (List.dropWhile_sublist _).length_le
  simp only [List.length_append, List.length_cons]
  omega

/-- The reader goes round by round. -/
theorem axisItems?_eq (s : List Char) :
    axisItems? s =
      match axisRound s with
      | .refused => .none
      | .last item => some [item]
      | .more item rest => (axisItems? rest).map (item :: ·) := by
  fun_cases axisItems? s with
  | case1 hitem => simp [axisRound, hitem]
  | case2 item rest hitem hrest => simp [axisRound, hitem, hrest]
  | case3 item rest hitem more hrest =>
      simp only [axisRound, hitem, hrest]
      cases axisItems? (trimStart isBlank more) <;> rfl
  | case4 item rest hitem hnil hcomma =>
      have hrefused : axisRound s = .refused := by
        rw [axisRound, hitem]
        dsimp only
        split
        next h => exact absurd h hnil
        next more h => exact absurd h (hcomma more)
        next => rfl
      rw [hrefused]

/-- The rounds come to an end, since each of them shortens the text. -/
theorem exists_endsAfter (s : List Char) : ∃ n ≤ s.length + 1, EndsAfter s n (axisItems? s) := by
  induction hl : s.length using Nat.strong_induction_on generalizing s with
  | _ l ih =>
      rw [axisItems?_eq]
      cases hround : axisRound s with
      | refused => exact ⟨1, by omega, .refused hround⟩
      | last item => exact ⟨1, by omega, .last hround⟩
      | more item rest =>
          have hlength := length_lt_of_axisRound hround
          obtain ⟨n, hn, hends⟩ := ih rest.length (hl ▸ hlength) rest rfl
          exact ⟨n + 1, by omega, .more hround hends⟩

/-- What has been read at the end of the rounds is a list of the grammar, with blanks at most behind
it. -/
theorem EndsAfter.exists_isAxisList {n : Nat} {r : Option (List (String × String))}
    (h : EndsAfter s n r) : ∀ items ∈ r,
      ∃ t b, s = t ++ b ∧ (∀ c ∈ b, isBlank c = true) ∧ IsAxisList t items := by
  induction h with
  | refused => nofun
  | last h =>
      rintro items ⟨⟩
      obtain ⟨t, b, hs, ht, hb⟩ := axisRound_eq_last_iff.1 h
      exact ⟨t, b, hs, hb, .single ht⟩
  | more h hrest ih =>
      intro items hitems
      obtain ⟨others, hothers, rfl⟩ := Option.map_eq_some_iff.1 hitems
      obtain ⟨t, a, more, rfl, ht, ha, rfl⟩ := axisRound_eq_more_iff.1 h
      obtain ⟨b, hmore, hb⟩ := eq_append_trimStart isBlank more
      obtain ⟨u, d, hu, hd, hlist⟩ := ih others hothers
      refine ⟨t ++ (a ++ ',' :: (b ++ u)), d, ?_, hd, .cons ht ha hb hlist⟩
      rw [hmore, hu]
      simp

/-- Blanks before an item belong to its axis, and may be left away. -/
theorem IsAxisItem.trimStart (h : IsAxisItem s item) :
    IsAxisItem (trimStart isBlank s) item ∧
      ∀ t, Text.trimStart isBlank (s ++ t) = Text.trimStart isBlank s ++ t := by
  obtain ⟨⟨axis, value, rfl, haxis, hfree, hfree', hname, hvalue⟩, hne, hne'⟩ := h
  have hopen : isBlank '(' = false := by decide
  have hsub {c : Char} : c ∈ Text.trimStart isBlank axis → c ∈ axis :=
    fun hc => (List.dropWhile_sublist _).mem hc
  refine ⟨⟨⟨Text.trimStart isBlank axis, value, trimStart_append_cons hopen _ _,
    fun hc => haxis (hsub hc), fun hc => hfree (hsub hc), hfree', ?_, hvalue⟩, hne, hne'⟩,
    fun t => ?_⟩
  · rw [trim_ofList_trimStart, hname]
  · simp [trimStart_append_cons hopen]

theorem IsAxisItem.getLast? (h : IsAxisItem s item) : s.getLast? = some ')' := by
  obtain ⟨axis, value, rfl, -⟩ := h.parts
  rw [← List.cons_append, ← List.append_assoc, List.getLast?_concat]

theorem IsAxisList.getLast? (h : IsAxisList t items) : t.getLast? = some ')' := by
  induction h with
  | single h => exact h.getLast?
  | cons h ha hb ht ih =>
      simp [List.getLast?_append, ih, List.getLast?_cons]

theorem IsAxisList.trimStart (h : IsAxisList t items) :
    IsAxisList (trimStart isBlank t) items := by
  cases h with
  | single h => exact .single h.trimStart.1
  | cons h ha hb ht =>
      rw [h.trimStart.2]
      exact .cons h.trimStart.1 ha hb ht

/-- A list without blanks around it. -/
theorem IsAxisList.trimBy_eq (h : IsAxisList t items) :
    trimBy isBlank t = Text.trimStart isBlank t := by
  have hlast := h.trimStart.getLast?
  obtain ⟨s, hs⟩ := List.getLast?_eq_some_iff.1 hlast
  rw [trimBy, hs, trimEnd_concat_of_neg s (by decide)]

/-- Every list of the grammar is read, also without the blanks before it. -/
theorem axisItems?_of_isAxisList (h : IsAxisList t items) :
    axisItems? (trimStart isBlank t) = some items := by
  induction h with
  | single h =>
      have hround := axisRound_eq_last_iff.2
        ⟨_, [], (List.append_nil _).symm, h.trimStart.1, by simp⟩
      rw [axisItems?_eq, hround]
  | @cons s a b t item items h ha hb ht ih =>
      have hround := axisRound_eq_more_iff.2 ⟨_, a, b ++ t, rfl, h.trimStart.1, ha, rfl⟩
      have hmore : trimStart isBlank (b ++ t) = trimStart isBlank t :=
        List.dropWhile_append_of_pos hb
      rw [h.trimStart.2, axisItems?_eq, hround, hmore]
      dsimp only
      rw [ih, Option.map_some]

theorem axisList_eq_ok {locator s : String} :
    axisList locator s = .ok items ↔ axisItems? (trimBy isBlank s.toList) = some items := by
  unfold axisList
  split
  next h => simp [h]
  next h => simp [h]

theorem axisList_eq_error {locator s : String} (h : ∀ items, axisList locator s ≠ .ok items) :
    axisList locator s = .error (.axisList locator s) := by
  unfold axisList at h ⊢
  split
  next items hitems =>
    rw [hitems] at h
    exact absurd rfl (h items)
  next => rfl

/-- A text is read exactly if it lists items, and then these are the answer. -/
theorem axisList_eq_ok_iff {locator s : String} :
    axisList locator s = .ok items ↔ ListsAxes s items := by
  rw [axisList_eq_ok]
  constructor
  · intro h
    obtain ⟨n, -, hends⟩ := exists_endsAfter (trimBy isBlank s.toList)
    obtain ⟨t, d, ht, hd, hlist⟩ := hends.exists_isAxisList items h
    obtain ⟨a, b, hs, ha, hb⟩ := eq_append_trimBy isBlank s.toList
    refine ⟨a, t, d ++ b, ?_, ha, fun c hc => (List.mem_append.1 hc).elim (hd c) (hb c), hlist⟩
    rw [hs, ht]
    simp
  · rintro ⟨a, t, b, hs, ha, hb, hlist⟩
    rw [hs, trimBy_append_append ha hb, hlist.trimBy_eq]
    exact axisItems?_of_isAxisList hlist

theorem ListsAxes.getLast?_trim {s : String} (h : ListsAxes s items) :
    (Text.trim s).toList.getLast? = some ')' := by
  obtain ⟨a, t, b, hs, ha, hb, hlist⟩ := h
  rw [toList_trim, hs, trimBy_append_append ha hb, hlist.trimBy_eq]
  exact hlist.trimStart.getLast?

/-- An axis and a value as they are read. -/
structure IsAxisPair (e : String × String) : Prop where
  trimmed : Text.trim e.1 = e.1 ∧ Text.trim e.2 = e.2
  ne_empty : e.1 ≠ "" ∧ e.2 ≠ ""
  axis : '(' ∉ e.1.toList ∧ ')' ∉ e.1.toList
  value : ')' ∉ e.2.toList

theorem IsAxisPair.isAxisItem {e : String × String} (h : IsAxisPair e) :
    IsAxisItem (e.1 ++ "(" ++ e.2 ++ ")").toList e := by
  refine ⟨⟨e.1.toList, e.2.toList, by simp, h.axis.1, h.axis.2, h.value, ?_, ?_⟩, h.ne_empty.1,
    h.ne_empty.2⟩
  · rw [String.ofList_toList, h.trimmed.1]
  · rw [String.ofList_toList, h.trimmed.2]

theorem isAxisList_axisText (hne : items ≠ []) (h : ∀ e ∈ items, IsAxisPair e) :
    IsAxisList (axisText items).toList items := by
  induction items with
  | nil => exact absurd rfl hne
  | cons e items ih =>
      have he := (h e List.mem_cons_self).isAxisItem
      cases items with
      | nil => exact .single he
      | cons e' items =>
          have hrest := ih (List.cons_ne_nil _ _) fun d hd => h d (List.mem_cons_of_mem e hd)
          have htext : (axisText (e :: e' :: items)).toList =
              (e.1 ++ "(" ++ e.2 ++ ")").toList ++
                ([] ++ ',' :: ([] ++ (axisText (e' :: items)).toList)) := by
            simp [axisText, join]
          rw [htext]
          exact .cons he (by simp) (by simp) hrest

/-- The reader of lists ends on every text, because each of its rounds leaves less than there was,
and answers items exactly if the text lists them. Items that are written as a list are read again,
and a comma at the end is refused. -/
theorem axisList_reads (locator s : String) :
    (∃ n ≤ (Text.trim s).toList.length + 1,
        EndsAfter (Text.trim s).toList n (axisList locator s).toOption) ∧
      (∀ t item rest, axisRound t = .more item rest → rest.length < t.length) ∧
      (∀ items, axisList locator s = .ok items ↔ ListsAxes s items) ∧
      ((∀ items, ¬ListsAxes s items) → axisList locator s = .error (.axisList locator s)) ∧
      (∀ items, items ≠ [] → (∀ e ∈ items, IsAxisPair e) →
        axisList locator (axisText items) = .ok items) ∧
      ∀ t, Text.trim s = t ++ "," → axisList locator s = .error (.axisList locator s) := by
  refine ⟨?_, fun t item rest => length_lt_of_axisRound, fun items => axisList_eq_ok_iff,
    fun h => axisList_eq_error fun items => ?_, fun items hne h => ?_, fun t ht => ?_⟩
  · have houtcome : (axisList locator s).toOption = axisItems? (Text.trim s).toList := by
      rw [toList_trim, axisList]
      cases axisItems? (trimBy isBlank s.toList) <;> rfl
    rw [houtcome]
    exact exists_endsAfter _
  · rw [Ne, axisList_eq_ok_iff]
    exact h items
  · exact axisList_eq_ok_iff.2
      ⟨[], _, [], by simp, by simp, by simp, isAxisList_axisText hne h⟩
  · refine axisList_eq_error fun items hitems => ?_
    have hlast := (axisList_eq_ok_iff.1 hitems).getLast?_trim
    rw [ht, String.toList_append] at hlast
    simp at hlast

end Scaling

end CoverageAccess
