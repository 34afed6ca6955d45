import CoverageAccess.Proofs.Time.Position
/-!
# Forms of time positions

A text without its zone name holds a date, and a time of day after a `T` (`Holds`); what it holds is
all that a position depends on. So a zone name may be added to a position that has none, with blanks
before it or without, and fields that are not written may be added with their least values
(`parsePosition_forms`).
-/

namespace CoverageAccess

namespace Time

open Instant Number Text

section Zones

variable {s t b z : List Char}

theorem withoutZone_of_trimBy_eq (h : trimBy isBlank s = trimBy isBlank t) :
    withoutZone s = withoutZone t := by
  rw [withoutZone, withoutZone, h]

/-- A text that ends in no zone name is only trimmed. -/
theorem withoutZone_eq_trimBy (h : ∀ z ∈ zoneNames, ¬z <:+ trimBy isBlank s) :
    withoutZone s = trimBy isBlank s := by
  have hnone : (zoneNames.findSome? fun z => dropTail? z (trimBy isBlank s)) = none := by
    rw [List.findSome?_eq_none_iff]
    intro z hz
    rw [Option.eq_none_iff_forall_ne_some]
    intro rest hrest
    exact h z hz ⟨rest, (dropTail?_eq_some_iff.1 hrest).symm⟩
  rw [withoutZone, hnone]

/-- A trimmed text is what remains without its zone name, and if it has one, then the blanks before it
and the zone name. -/
theorem withoutZone_cases (hs : Bare isBlank s) :
    withoutZone s = s ∨
      ∃ b, (∀ c ∈ b, isBlank c = true) ∧ ∃ z ∈ zoneNames, s = withoutZone s ++ b ++ z := by
  cases hfound : zoneNames.findSome? fun z => dropTail? z (trimBy isBlank s) with
  | none =>
      rw [withoutZone, hfound]
      exact .inl hs.trimBy_eq
  | some rest =>
      obtain ⟨z, hz, hrest⟩ := List.exists_of_findSome?_eq_some hfound
      rw [hs.trimBy_eq, dropTail?_eq_some_iff] at hrest
      obtain ⟨b, hb, hblank⟩ := eq_trimEnd_append isBlank rest
      rw [withoutZone, hfound]
      exact .inr ⟨b, hblank, z, hz, by rw [← hb, hrest]⟩

/-- A zone name after a text that ends in none changes nothing, and neither do blanks before it. -/
theorem withoutZone_append_zone (h : ∀ z ∈ zoneNames, ¬z <:+ trimBy isBlank s)
    (hne : withoutZone s ≠ []) (hb : ∀ c ∈ b, isBlank c = true) (hz : z ∈ zoneNames) :
    withoutZone (s ++ b ++ z) = withoutZone s := by
  rw [withoutZone_eq_trimBy h] at hne ⊢
  obtain ⟨a, b', hs, ha, hb'⟩ := eq_append_trimBy isBlank s
  have hblanks : ∀ c ∈ b' ++ b, isBlank c = true := List.forall_mem_append.2 ⟨hb', hb⟩
  have htext : s ++ b ++ z = a ++ (trimBy isBlank s ++ (b' ++ b) ++ z) ++ [] := by
    conv_lhs => rw [hs]
    simp
  have htrim := trimBy_append_append (s := trimBy isBlank s ++ (b' ++ b) ++ z) (b := []) ha (by simp)
  rw [← htext] at htrim
  rw [withoutZone_of_trimBy_eq htrim,
    withoutZone_append (bare_trimBy isBlank s) hne hblanks hz]

end Zones

/-- The time of day before a numeric offset. -/
def withoutOffset (s : List Char) : List Char :=
  match cut? (fun c => c == '+' || c == '-') s with
  | some (before, _) => before
  | none => s

theorem clockOf_eq (s : List Char) : clockOf s =
    if 3 < (split (· == ':') (withoutOffset s)).length then .error .manyClockFields
    else (clock? (split (· == ':') (withoutOffset s))).elim (.error .clock) .ok := by
  rw [clockOf, withoutOffset]
  cases cut? (fun c => c == '+' || c == '-') s with
  | none => cases clock? (split (· == ':') s) <;> rfl
  | some parts => cases clock? (split (· == ':') parts.1) <;> rfl

theorem clockOf_eq_ok_iff {s : List Char} {c : Clock} : clockOf s = .ok c ↔
    (split (· == ':') (withoutOffset s)).length ≤ 3 ∧
      clock? (split (· == ':') (withoutOffset s)) = some c := by
  rw [clockOf_eq, ← Nat.not_lt]
  split
  next h => exact iff_of_false (fun h => by cases h) fun h' => h'.1 h
  next h => cases clock? (split (· == ':') (withoutOffset s)) <;> simp [h]

/-- The date and the time of day that stand in a text without zone name. -/
inductive Holds (s : List Char) (d : Date) : Clock → Prop
  | date (hcut : cut? (· == 'T') s = none) (hlength : (split (· == '-') s).length ≤ 3)
      (hdate : date? (split (· == '-') s) = some d) : Holds s d .midnight
  | dateAndClock {datePart clockPart : List Char} {c : Clock}
      (hcut : cut? (· == 'T') s = some (datePart, clockPart))
      (hlength : (split (· == '-') datePart).length = 3)
      (hdate : date? (split (· == '-') datePart) = some d) (hclock : clockOf clockPart = .ok c) :
      Holds s d c

variable {s : List Char} {i : Instant}

theorem Holds.ne_nil {d : Date} {c : Clock} (h : Holds s d c) : s ≠ [] := by
  rintro rfl
  cases h with
  | date _ _ hdate => cases hdate
  | dateAndClock hcut _ _ _ => cases hcut

theorem exists_holds_of_positionOf (h : positionOf s = .ok i) :
    ∃ d c, Holds (withoutZone s) d c ∧ ofDateAndClock? d c = some i := by
  rw [positionOf] at h
  dsimp only at h
  split at h
  next => cases h
  next =>
    cases hcut : cut? (· == 'T') (withoutZone s) with
    | none =>
        rw [hcut] at h
        dsimp only at h
        split at h
        next => cases h
        next hlength =>
          rw [if_neg (by simp)] at h
          split at h
          next => cases h
          next d hdate =>
            rw [ok_bind] at h
            split at h
            next hi =>
              cases h
              exact ⟨d, .midnight, .date hcut (Nat.not_lt.1 hlength) hdate, hi⟩
            next => cases h
    | some parts =>
        rw [hcut] at h
        dsimp only at h
        split at h
        next => cases h
        next =>
          split at h
          next => cases h
          next hcomplete =>
            have hlength : (split (· == '-') parts.1).length = 3 := by simpa using hcomplete
            split at h
            next => cases h
            next d hdate =>
              obtain ⟨c, hclock, h⟩ := bind_eq_ok_iff.1 h
              split at h
              next hi =>
                cases h
                exact ⟨d, c, .dateAndClock hcut hlength hdate hclock, hi⟩
              next => cases h

theorem Holds.positionOf_eq_ok {d : Date} {c : Clock} (h : Holds (withoutZone s) d c)
    (hi : ofDateAndClock? d c = some i) : positionOf s = .ok i := by
  rw [positionOf, if_neg h.ne_nil]
  cases h with
  | date hcut hlength hdate =>
      rw [hcut]
      dsimp only
      rw [if_neg (Nat.not_lt.2 hlength), if_neg (by simp), hdate]
      dsimp only
      rw [ok_bind, hi]
  | dateAndClock hcut hlength hdate hclock =>
      rw [hcut]
      dsimp only
      rw [if_neg (by omega), if_neg (by simp [hlength]), hdate]
      dsimp only
      rw [hclock, ok_bind, hi]

/-- A position is the instant of the date and the time of day that it holds. -/
theorem parsePosition_eq_ok_iff {s : String} : parsePosition s = .ok i ↔
    ∃ d c, Holds (withoutZone s.toList) d c ∧ ofDateAndClock? d c = some i := by
  rw [parsePosition, mapError_eq_ok_iff]
  constructor
  · exact exists_holds_of_positionOf
  · rintro ⟨d, c, h, hi⟩
    exact h.positionOf_eq_ok hi

/-- A negative year is a field too many, because its minus is read as a separator. -/
theorem parsePosition_gml_of_neg (hi : i.date.year < 0) :
    parsePosition i.gml = .error (Unreadable.fault i.gml .manyDateFields) := by
  have hdigits (n w : Nat) : split (· == '-') (padded w n) = [padded w n] :=
    split_of_forall fun c hc => beq_of_isDigit (isDigit_of_mem_padded hc) (by decide)
  have hcut (s t : List Char) :
      split (· == '-') (s ++ '-' :: t) = split (· == '-') s ++ split (· == '-') t :=
    split_append_cons s t (beq_self_eq_true '-')
  have hfields : 3 < (split (· == '-') (dateChars i.date)).length := by
    rw [dateChars, yearChars_of_neg hi, hcut, hcut]
    change 3 < (split _ ([] ++ '-' :: padded 4 _) ++ _).length
    rw [hcut, hdigits, hdigits, hdigits]
    simp
  rw [parsePosition, positionOf, withoutZone_gml]
  dsimp only
  rw [if_neg (by simp), cut?_append_cons beq_of_mem_dateChars (beq_self_eq_true _)]
  dsimp only
  rw [if_pos hfields]
  rfl

section Fields

variable {c x : Char} {d : Date} {k : Clock} {ws vs : List String}

theorem mem_join_date (hws : ∀ w ∈ ws, ∀ c ∈ w.toList, IsDateChar c)
    (hc : c ∈ (join "-" ws).toList) : IsDateChar c ∨ c = '-' := by
  rcases mem_join hc with hc | ⟨w, hw, hc⟩
  · exact .inr (List.mem_singleton.1 hc)
  · exact .inl (hws w hw c hc)

theorem split_join_date (hne : ws ≠ []) (hws : ∀ w ∈ ws, ∀ c ∈ w.toList, IsDateChar c) :
    split (· == '-') (join "-" ws).toList = ws.map String.toList :=
  split_join rfl (beq_self_eq_true '-') hne fun w hw c hc => (hws w hw c hc).beq (by decide)

/-- No `T` stands in the fields of a date. -/
theorem beq_of_mem_join_date (hws : ∀ w ∈ ws, ∀ c ∈ w.toList, IsDateChar c) :
    ∀ c ∈ (join "-" ws).toList, (c == 'T') = false := by
  intro c hc
  rcases mem_join_date hws hc with hc | rfl
  · exact hc.beq (by decide)
  · decide

theorem mem_join_clock (hvs : ∀ v ∈ vs, ∀ c ∈ v.toList, isDigit c = true)
    (hc : c ∈ (join ":" vs).toList) : isDigit c = true ∨ c = ':' := by
  rcases mem_join hc with hc | ⟨v, hv, hc⟩
  · exact .inr (List.mem_singleton.1 hc)
  · exact .inl (hvs v hv c hc)

/-- Every zone name has a letter that stands in no date and no time of day. -/
theorem withoutZone_of_forall (hs : ∀ c ∈ s, IsDateChar c ∨ c ∈ ['-', 'T', ':']) :
    withoutZone s = s := by
  have hseparator : ∀ c ∈ ['-', 'T', ':'], isBlank c = false := by decide
  have hbare : trimBy isBlank s = s := by
    refine (bare_of_forall fun c hc => ?_).trimBy_eq
    rcases hs c hc with hc | hc
    · exact hc.not_isBlank
    · exact hseparator c hc
  have hletter : ∀ z ∈ zoneNames, ∃ c ∈ z, ¬(IsDateChar c ∨ c ∈ ['-', 'T', ':']) := by decide
  rw [withoutZone_eq_trimBy, hbare]
  intro z hz hsuffix
  rw [hbare] at hsuffix
  obtain ⟨c, hc, hother⟩ := hletter z hz
  exact hother (hs c (hsuffix.subset hc))

/-- A date of up to three fields holds what they are read as, at midnight. -/
theorem holds_join (hne : ws ≠ []) (hlength : ws.length ≤ 3)
    (hws : ∀ w ∈ ws, ∀ c ∈ w.toList, IsDateChar c) (hdate : date? (ws.map String.toList) = some d) :
    Holds (withoutZone (join "-" ws).toList) d .midnight := by
  have hsplit := split_join_date hne hws
  have hcut : cut? (· == 'T') (join "-" ws).toList = none :=
    cut?_of_forall (beq_of_mem_join_date hws)
  rw [withoutZone_of_forall fun c hc => (mem_join_date hws hc).imp_right fun h => by rw [h]; decide]
  refine .date hcut ?_ ?_
  · rwa [hsplit, List.length_map]
  · rwa [hsplit]

/-- A complete date with a time of day of up to three fields holds what the fields are read as. -/
theorem holds_join_join (hlength : ws.length = 3) (hne : vs ≠ []) (hlength' : vs.length ≤ 3)
    (hws : ∀ w ∈ ws, ∀ c ∈ w.toList, IsDateChar c)
    (hvs : ∀ v ∈ vs, ∀ c ∈ v.toList, isDigit c = true)
    (hdate : date? (ws.map String.toList) = some d)
    (hclock : clock? (vs.map String.toList) = some k) :
    Holds (withoutZone (join "-" ws ++ "T" ++ join ":" vs).toList) d k := by
  have htext : (join "-" ws ++ "T" ++ join ":" vs).toList =
      (join "-" ws).toList ++ 'T' :: (join ":" vs).toList := by simp
  have hzone : withoutZone (join "-" ws ++ "T" ++ join ":" vs).toList =
      (join "-" ws ++ "T" ++ join ":" vs).toList := by
    refine withoutZone_of_forall fun c hc => ?_
    rw [htext, List.mem_append, List.mem_cons] at hc
    rcases hc with hc | rfl | hc
    · exact (mem_join_date hws hc).imp_right fun h => by rw [h]; decide
    · exact .inr (by decide)
    · exact (mem_join_clock hvs hc).imp .inl fun h => by rw [h]; decide
  have hne' : ws ≠ [] := by
    rintro rfl
    cases hlength
  have hdateSplit := split_join_date hne' hws
  have hclockSplit : split (· == ':') (join ":" vs).toList = vs.map String.toList :=
    split_join rfl (beq_self_eq_true ':') hne fun v hv c hc =>
      beq_of_isDigit (hvs v hv c hc) (by decide)
  have hcut : cut? (· == 'T') ((join "-" ws).toList ++ 'T' :: (join ":" vs).toList) =
      some ((join "-" ws).toList, (join ":" vs).toList) :=
    cut?_append_cons (beq_of_mem_join_date hws) (beq_self_eq_true 'T')
  have hoffset : ∀ c ∈ (join ":" vs).toList, (c == '+' || c == '-') = false := by
    intro c hc
    rcases mem_join_clock hvs hc with hc | rfl
    · rw [beq_of_isDigit hc (by decide), beq_of_isDigit hc (by decide)]
      rfl
    · decide
  rw [hzone, htext]
  refine .dateAndClock hcut ?_ ?_ ?_
  · rwa [hdateSplit, List.length_map]
  · rwa [hdateSplit]
  · rw [clockOf_eq_ok_iff, withoutOffset, cut?_of_forall hoffset]
    dsimp only
    rw [hclockSplit, List.length_map]
    exact ⟨hlength', hclock⟩

end Fields

section Numerals

variable {s y m d : List Char} {n : Nat}

theorem isDateChar_of_natural? (h : natural? (dropPlus s) = some n) : ∀ c ∈ s, IsDateChar c :=
  fun _ hc => (mem_dropPlus_or hc).imp_left (isDigit_of_mem_of_natural? h _)

theorem fieldNumber?_of_natural? (h : natural? s = some n) (hn : n < 2 ^ 32) :
    fieldNumber? s = some n := by
  have hdigits := isDigit_of_mem_of_natural? h
  have hbare : trimBy isBlank s = s :=
    (bare_of_forall fun c hc => not_isBlank_of_isDigit (hdigits c hc)).trimBy_eq
  rw [fieldNumber?, hbare, unsigned?, dropPlus_of_isDigit hdigits, h]
  exact Option.filter_eq_some_iff.2 ⟨rfl, decide_eq_true (Nat.le_sub_one_of_lt hn)⟩

/-- A year may have a plus before its digits. -/
theorem signed?_of_natural? (h : natural? (dropPlus s) = some n) (hn : n < 2 ^ 31) :
    signed? 32 (trimBy isBlank s) = some (n : Int) := by
  have hbare : trimBy isBlank s = s :=
    (bare_of_forall fun c hc => (isDateChar_of_natural? h c hc).not_isBlank).trimBy_eq
  have hsign : splitSign s = (false, dropPlus s) := by
    unfold splitSign
    split
    next => cases h
    next => rfl
  rw [hbare, signed?, hsign]
  dsimp only
  rw [h]
  refine Option.filter_eq_some_iff.2 ⟨rfl, ?_⟩
  simp
  omega

theorem clock?_eq_some {hour minute : Nat} (hh : fieldNumber? s = some hour)
    (hm : fieldNumber? m = some minute) (hvalid : Clock.isValid ⟨hour, minute, 0, 0⟩ = true) :
    clock? [s, m] = some ⟨hour, minute, 0, 0⟩ := by
  simp only [clock?, List.getElem?_cons_zero, List.getElem?_cons_succ, fieldOr, Option.bind_eq_bind,
    Option.bind_some, hh, hm]
  exact if_pos hvalid

end Numerals

section Reduced

-- a field that is not written has its least value
theorem date?_year (y : List Char) : date? [y, "01".toList, "01".toList] = date? [y] := rfl

theorem date?_month (y m : List Char) : date? [y, m, "01".toList] = date? [y, m] := rfl

theorem clock?_hour (h : List Char) : clock? [h, "00".toList, "00".toList] = clock? [h] := rfl

theorem clock?_minute (h m : List Char) : clock? [h, m, "00".toList] = clock? [h, m] := rfl

theorem bounds_of_date? {fields : List (List Char)} {d : Date} (h : date? fields = some d) :
    d.isValid = true ∧ -262143 ≤ d.year ∧ d.year ≤ 262142 := by
  obtain ⟨y, -, h⟩ := Option.bind_eq_some_iff.1 h
  obtain ⟨year, -, h⟩ := Option.bind_eq_some_iff.1 h
  obtain ⟨month, -, h⟩ := Option.bind_eq_some_iff.1 h
  obtain ⟨day, -, h⟩ := Option.bind_eq_some_iff.1 h
  dsimp only at h
  split at h
  next hbounds =>
    cases h
    exact hbounds
  next => cases h

theorem isValid_of_clock? {fields : List (List Char)} {c : Clock} (h : clock? fields = some c) :
    c.isValid = true := by
  obtain ⟨f, -, h⟩ := Option.bind_eq_some_iff.1 h
  obtain ⟨hour, -, h⟩ := Option.bind_eq_some_iff.1 h
  obtain ⟨minute, -, h⟩ := Option.bind_eq_some_iff.1 h
  obtain ⟨⟨second, nanos⟩, -, h⟩ : ∃ r : Nat × Nat, True ∧
      (if Clock.isValid ⟨hour, minute, r.1, r.2⟩ then some ⟨hour, minute, r.1, r.2⟩ else none) =
        some c := by
    split at h
    · obtain ⟨r, -, h⟩ := Option.bind_eq_some_iff.1 h
      exact ⟨r, trivial, h⟩
    · obtain ⟨r, -, h⟩ := Option.bind_eq_some_iff.1 h
      exact ⟨r, trivial, h⟩
  split at h
  next hvalid =>
    cases h
    exact hvalid
  next => cases h

theorem Holds.bounds {s : List Char} {d : Date} {c : Clock} (h : Holds s d c) :
    (d.isValid = true ∧ -262143 ≤ d.year ∧ d.year ≤ 262142) ∧ c.isValid = true := by
  cases h with
  | date _ _ hdate => exact ⟨bounds_of_date? hdate, rfl⟩
  | dateAndClock _ _ hdate hclock =>
      exact ⟨bounds_of_date? hdate, isValid_of_clock? (clockOf_eq_ok_iff.1 hclock).2⟩

/-- Whatever stands in a position is an instant. -/
theorem Holds.exists_instant {s : List Char} {d : Date} {c : Clock} (h : Holds s d c) :
    ∃ i, ofDateAndClock? d c = some i := by
  obtain ⟨⟨hdate, hfirst, hlast⟩, hclock⟩ := h.bounds
  exact exists_ofDateAndClock? hdate hclock hfirst hlast

/-- The text is read as the instant of the date and the time of day. -/
def ReadsAs (s : String) (d : Date) (c : Clock) : Prop :=
  ∃ i, ofDateAndClock? d c = some i ∧ parsePosition s = .ok i

theorem Holds.readsAs {s : String} {d : Date} {c : Clock} (h : Holds (withoutZone s.toList) d c) :
    ReadsAs s d c := by
  obtain ⟨i, hi⟩ := h.exists_instant
  exact ⟨i, hi, parsePosition_eq_ok_iff.2 ⟨d, c, h, hi⟩⟩

/-- The texts are a year, a month, a day, an hour and a minute in digits, and there are such a date
and such a time of day. The year may have a plus. -/
structure Writes (y m d h n : String) (date : Date) (clock : Clock) : Prop where
  year : ∃ k : Nat, date.year = k ∧ natural? (dropPlus y.toList) = some k
  month : natural? m.toList = some date.month
  day : natural? d.toList = some date.day
  hour : natural? h.toList = some clock.hour
  minute : natural? n.toList = some clock.minute
  toMinute : clock.second = 0 ∧ clock.nanos = 0
  date_isValid : date.isValid = true
  year_le : date.year ≤ 262142
  clock_isValid : clock.isValid = true

section Writes

variable {y m d h n : String} {date : Date} {clock : Clock}

theorem Writes.isDateChar (hw : Writes y m d h n date clock) :
    (∀ c ∈ y.toList, IsDateChar c) ∧ (∀ c ∈ m.toList, IsDateChar c) ∧
      ∀ c ∈ d.toList, IsDateChar c := by
  obtain ⟨k, -, hk⟩ := hw.year
  exact ⟨isDateChar_of_natural? hk, fun c hc => .inl (isDigit_of_mem_of_natural? hw.month c hc),
    fun c hc => .inl (isDigit_of_mem_of_natural? hw.day c hc)⟩

theorem Writes.date? (hw : Writes y m d h n date clock) :
    date? [y.toList, m.toList, d.toList] = some date := by
  obtain ⟨k, hyear, hk⟩ := hw.year
  have hlast := hw.year_le
  have hvalid := hw.date_isValid
  simp only [Date.isValid, Bool.and_eq_true, decide_eq_true_eq] at hvalid
  have hday := Date.day_le_of_isValid hw.date_isValid
  refine date?_eq_some ?_ (fieldNumber?_of_natural? hw.month (by omega))
    (fieldNumber?_of_natural? hw.day (by omega)) hw.date_isValid (by omega) hlast
  rw [hyear]
  exact signed?_of_natural? hk (by omega)

theorem Writes.clock? (hw : Writes y m d h n date clock) :
    clock? [h.toList, n.toList] = some clock := by
  obtain ⟨hsecond, hnanos⟩ := hw.toMinute
  have hvalid := hw.clock_isValid
  obtain ⟨hour, minute, second, nanos⟩ := clock
  dsimp only at hsecond hnanos
  subst hsecond hnanos
  simp only [Clock.isValid, Bool.and_eq_true, decide_eq_true_eq] at hvalid
  exact clock?_eq_some (fieldNumber?_of_natural? hw.hour (by omega))
    (fieldNumber?_of_natural? hw.minute (by omega)) hw.clock_isValid

/-- A date without its day is the first day of the month. -/
theorem Writes.firstOfMonth (hw : Writes y m d h n date clock) :
    Writes y m "01" h n ⟨date.year, date.month, 1⟩ clock where
  __ := hw
  day := rfl
  date_isValid := by
    have hvalid := hw.date_isValid
    simp only [Date.isValid, Bool.and_eq_true, decide_eq_true_eq] at hvalid ⊢
    omega

theorem Writes.firstOfYear (hw : Writes y m d h n date clock) :
    Writes y "01" "01" h n ⟨date.year, 1, 1⟩ clock where
  __ := hw
  month := rfl
  day := rfl
  date_isValid := rfl

theorem Writes.fullHour (hw : Writes y m d h n date clock) :
    Writes y m d h "00" date { clock with minute := 0 } where
  __ := hw
  minute := rfl
  clock_isValid := by
    have hvalid := hw.clock_isValid
    simp only [Clock.isValid, Bool.and_eq_true, decide_eq_true_eq] at hvalid ⊢
    omega

theorem Writes.midnight (hw : Writes y m d h n date clock) :
    Writes y m d "00" "00" date .midnight where
  __ := hw
  hour := rfl
  minute := rfl
  toMinute := ⟨rfl, rfl⟩
  clock_isValid := rfl

/-- The time position with the given fields of a date and, if there are any, of a time of day. -/
def position (date clock : List String) : String :=
  match clock with
  | [] => join "-" date
  | _ => join "-" date ++ "T" ++ join ":" clock

theorem readsAs_date {ws : List String} (hne : ws ≠ []) (hlength : ws.length ≤ 3)
    (hws : ∀ w ∈ ws, ∀ c ∈ w.toList, IsDateChar c)
    (hdate : Time.date? (ws.map String.toList) = some date) :
    ReadsAs (position ws []) date .midnight :=
  (holds_join hne hlength hws hdate).readsAs

theorem Writes.readsAs_dateAndClock (hw : Writes y m d h n date clock) {v : String}
    {vs : List String} (hlength : vs.length ≤ 2)
    (hvs : ∀ u ∈ v :: vs, ∀ c ∈ u.toList, isDigit c = true)
    (hclock : Time.clock? (v.toList :: vs.map String.toList) = some clock) :
    ReadsAs (position [y, m, d] (v :: vs)) date clock := by
  obtain ⟨hy, hm, hd⟩ := hw.isDateChar
  have hws : ∀ w ∈ [y, m, d], ∀ c ∈ w.toList, IsDateChar c := by
    simpa using ⟨hy, hm, hd⟩
  exact (holds_join_join rfl (List.cons_ne_nil v vs) (Nat.succ_le_succ hlength) hws hvs hw.date?
    hclock).readsAs

theorem Writes.readsAs_year (hw : Writes y m d h n date clock) :
    ReadsAs (position [y] []) ⟨date.year, 1, 1⟩ .midnight :=
  readsAs_date (List.cons_ne_nil y []) (Nat.le_add_left 1 2) (by simpa using hw.isDateChar.1)
    ((date?_year y.toList).symm.trans hw.firstOfYear.date?)

theorem Writes.readsAs_month (hw : Writes y m d h n date clock) :
    ReadsAs (position [y, m] []) ⟨date.year, date.month, 1⟩ .midnight :=
  readsAs_date (List.cons_ne_nil y _) (Nat.le_succ 2)
    (by simpa using ⟨hw.isDateChar.1, hw.isDateChar.2.1⟩)
    ((date?_month y.toList m.toList).symm.trans hw.firstOfMonth.date?)

theorem Writes.readsAs_day (hw : Writes y m d h n date clock) :
    ReadsAs (position [y, m, d] []) date .midnight :=
  readsAs_date (List.cons_ne_nil y _) le_rfl (by simpa using hw.isDateChar) hw.date?

theorem Writes.isDigit (hw : Writes y m d h n date clock) :
    (∀ c ∈ h.toList, isDigit c = true) ∧ ∀ c ∈ n.toList, isDigit c = true :=
  ⟨isDigit_of_mem_of_natural? hw.hour, isDigit_of_mem_of_natural? hw.minute⟩

theorem Writes.readsAs_hour (hw : Writes y m d h n date clock) :
    ReadsAs (position [y, m, d] [h]) date { clock with minute := 0 } :=
  hw.fullHour.readsAs_dateAndClock (Nat.zero_le 2) (by simpa using hw.isDigit.1)
    ((clock?_hour h.toList).symm.trans hw.fullHour.clock?)

theorem Writes.readsAs_minute (hw : Writes y m d h n date clock) :
    ReadsAs (position [y, m, d] [h, n]) date clock :=
  hw.readsAs_dateAndClock (Nat.le_succ 1) (by simpa using hw.isDigit) hw.clock?

theorem Writes.readsAs_second (hw : Writes y m d h n date clock) :
    ReadsAs (position [y, m, d] [h, n, "00"]) date clock :=
  hw.readsAs_dateAndClock le_rfl (by simpa using ⟨hw.isDigit.1, hw.isDigit.2, rfl⟩)
    ((clock?_minute h.toList n.toList).trans hw.clock?)

end Writes

end Reduced

/-- The zone names that say Coordinated Universal Time. -/
def zones : List String := ["Z", "z", "UTC", "GMT", "UT"]

theorem toList_mem_zoneNames {z : String} (hz : z ∈ zones) : z.toList ∈ zoneNames := by
  revert z
  decide

theorem exists_zone {z : List Char} (hz : z ∈ zoneNames) : ∃ y ∈ zones, y.toList = z := by
  revert z
  decide

/-- A zone name after a position that has none changes nothing, with blanks before it or without. -/
theorem parsePosition_append_zone {s b z : String} (h : parsePosition s = .ok i)
    (hzone : ∀ z ∈ zones, ¬z.toList <:+ (trim s).toList) (hz : z ∈ zones)
    (hb : ∀ c ∈ b.toList, isBlank c = true) : parsePosition (s ++ b ++ z) = .ok i := by
  rw [parsePosition_eq_ok_iff] at h ⊢
  obtain ⟨d, c, hholds, hi⟩ := h
  have hnone : ∀ y ∈ zoneNames, ¬y <:+ trimBy isBlank s.toList := by
    intro y hy
    obtain ⟨x, hx, rfl⟩ := exists_zone hy
    rw [← toList_trim]
    exact hzone x hx
  refine ⟨d, c, ?_, hi⟩
  rwa [String.toList_append, String.toList_append,
    withoutZone_append_zone hnone hholds.ne_nil hb (toList_mem_zoneNames hz)]

/-- The position of an instant is read to the millisecond, and refused if its year is negative; a zone
name may be added to a position; and fields that are not written have their least values. -/
theorem parsePosition_forms :
    (∀ i : Instant, (0 ≤ i.date.year → parsePosition i.gml = .ok i.toMilli) ∧
      (i.date.year < 0 → ∃ f, parsePosition i.gml = .error f)) ∧
      (∀ s i, parsePosition s = .ok i → (∀ z ∈ zones, ¬z.toList <:+ (trim s).toList) →
        ∀ z ∈ zones, ∀ b : String, (∀ c ∈ b.toList, isBlank c = true) →
          parsePosition (s ++ b ++ z) = .ok i) ∧
      ∀ y m d h n date clock, Writes y m d h n date clock →
        (ReadsAs (position [y] []) ⟨date.year, 1, 1⟩ .midnight ∧
          ReadsAs (position [y, "01", "01"] ["00", "00", "00"]) ⟨date.year, 1, 1⟩ .midnight) ∧
        (ReadsAs (position [y, m] []) ⟨date.year, date.month, 1⟩ .midnight ∧
          ReadsAs (position [y, m, "01"] ["00", "00", "00"]) ⟨date.year, date.month, 1⟩
            .midnight) ∧
        (ReadsAs (position [y, m, d] []) date .midnight ∧
          ReadsAs (position [y, m, d] ["00", "00", "00"]) date .midnight) ∧
        (ReadsAs (position [y, m, d] [h]) date { clock with minute := 0 } ∧
          ReadsAs (position [y, m, d] [h, "00", "00"]) date { clock with minute := 0 }) ∧
        (ReadsAs (position [y, m, d] [h, n]) date clock ∧
          ReadsAs (position [y, m, d] [h, n, "00"]) date clock) := by
  refine ⟨fun i => ⟨fun hi => parsePosition_gml hi, fun hi => ⟨_, parsePosition_gml_of_neg hi⟩⟩,
    fun s i h hzone z hz b hb => parsePosition_append_zone h hzone hz hb, ?_⟩
  intro y m d h n date clock hw
  exact ⟨⟨hw.readsAs_year, hw.firstOfYear.midnight.readsAs_second⟩,
    ⟨hw.readsAs_month, hw.firstOfMonth.midnight.readsAs_second⟩,
    ⟨hw.readsAs_day, hw.midnight.readsAs_second⟩,
    ⟨hw.readsAs_hour, hw.fullHour.readsAs_second⟩,
    ⟨hw.readsAs_minute, hw.readsAs_second⟩⟩

/-- Noon of 18 July 2002. -/
def summerNoon : Instant := ⟨1026993600000000000, by decide, by decide⟩

/-- The last nanosecond before 1970. -/
def eve : Instant := ⟨-1, by decide, by decide⟩

def firstInstant : Instant := ⟨earliest, by decide, by decide⟩

theorem parsePosition_summerNoon : parsePosition "2002-07-18T12:00" = .ok summerNoon := by rfl

theorem writes_harvest : Writes "+2006" "9" "27" "10" "05" ⟨2006, 9, 27⟩ ⟨10, 5, 0, 0⟩ where
  year := ⟨2006, rfl, rfl⟩
  month := rfl
  day := rfl
  hour := rfl
  minute := rfl
  toMinute := ⟨rfl, rfl⟩
  date_isValid := rfl
  year_le := by decide
  clock_isValid := rfl

theorem parsePosition_forms_summerNoon :
    (0 ≤ eve.date.year ∧ parsePosition eve.gml = .ok eve.toMilli) ∧
      (firstInstant.date.year < 0 ∧ ∃ f, parsePosition firstInstant.gml = .error f) ∧
      (parsePosition "2002-07-18T12:00" = .ok summerNoon ∧
        parsePosition ("2002-07-18T12:00" ++ "  " ++ "GMT") = .ok summerNoon) ∧
      Writes "+2006" "9" "27" "10" "05" ⟨2006, 9, 27⟩ ⟨10, 5, 0, 0⟩ ∧
        ReadsAs "+2006-9-27T10" ⟨2006, 9, 27⟩ ⟨10, 0, 0, 0⟩ ∧
          ReadsAs "+2006-9-27T10:00:00" ⟨2006, 9, 27⟩ ⟨10, 0, 0, 0⟩ := by
  have hyear : 0 ≤ eve.date.year := by decide
  have hneg : firstInstant.date.year < 0 := by decide
  have hzone : ∀ z ∈ zones, ¬z.toList <:+ (trim "2002-07-18T12:00").toList := by decide
  obtain ⟨hgml, happend, hreduced⟩ := parsePosition_forms
  obtain ⟨-, -, -, hhour, -⟩ := hreduced _ _ _ _ _ _ _ writes_harvest
  exact ⟨⟨hyear, (hgml eve).1 hyear⟩, ⟨hneg, (hgml firstInstant).2 hneg⟩,
    ⟨parsePosition_summerNoon,
      happend _ _ parsePosition_summerNoon hzone "GMT" (by decide) "  " (by decide)⟩,
    writes_harvest, hhour⟩

end Time

end CoverageAccess
