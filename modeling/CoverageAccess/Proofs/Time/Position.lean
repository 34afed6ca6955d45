import CoverageAccess.Proofs.Number.Integer
import CoverageAccess.Proofs.Outcome
import CoverageAccess.Proofs.Text.Split
import CoverageAccess.Proofs.Time.Instant
import CoverageAccess.Time.Position
/-!
# Reading time positions

Fields that were written with leading zeros are read as their numbers, and a zone name at the end is
passed over together with the blanks before it (`withoutZone_append`). So the time position of an
instant is read as the instant without the parts of its millisecond (`parsePosition_gml`), also where
the year has more than four digits and a plus before them.
-/

namespace CoverageAccess

namespace Time

open Instant Number Text

/-- A zone name is found at the end of a text whatever stands before it. -/
theorem findSome?_zoneNames {z : List Char} (hz : z ∈ zoneNames) (s : List Char) :
    (zoneNames.findSome? fun y => dropTail? y (s ++ z)) = some s := by
  simp only [zoneNames, List.mem_cons, List.not_mem_nil, or_false] at hz
  rcases hz with rfl | rfl | rfl | rfl | rfl <;>
    simp [zoneNames, dropTail?, dropStart?]

/-- A zone name at the end is passed over, and so are the blanks before it. -/
theorem withoutZone_append {s b z : List Char} (hs : Bare isBlank s) (hne : s ≠ [])
    (hb : ∀ c ∈ b, isBlank c = true) (hz : z ∈ zoneNames) : withoutZone (s ++ b ++ z) = s := by
  have hzone : ∀ z ∈ zoneNames, z ≠ [] ∧ ∀ c ∈ z, isBlank c = false := by decide
  obtain ⟨hzne, hvisible⟩ := hzone z hz
  have hbare : Bare isBlank (s ++ b ++ z) := by
    constructor
    · intro c hc
      rw [List.append_assoc, List.head?_append_of_ne_nil _ hne] at hc
      exact hs.1 c hc
    · intro c hc
      rw [List.getLast?_append_of_ne_nil _ hzne] at hc
      exact hvisible c (List.mem_of_getLast? hc)
  rw [withoutZone, hbare.trimBy_eq, findSome?_zoneNames hz]
  change trimEnd isBlank (s ++ b) = s
  rw [trimEnd_append hb, hs.trimEnd_eq]

section Fields

variable {c x : Char} {n : Nat}

theorem beq_of_isDigit (hc : isDigit c = true) (hx : isDigit x = false) : (c == x) = false := by
  rw [beq_eq_false_iff_ne]
  rintro rfl
  rw [hx] at hc
  cases hc

theorem not_isBlank_of_mem_padded {width : Nat} (hc : c ∈ padded width n) : isBlank c = false :=
  not_isBlank_of_isDigit (isDigit_of_mem_padded hc)

theorem fieldNumber?_padded (width : Nat) (h : n < 2 ^ 32) :
    fieldNumber? (padded width n) = some n := by
  rw [fieldNumber?, (bare_of_forall fun _ => not_isBlank_of_mem_padded).trimBy_eq]
  exact unsigned?_padded (Nat.le_sub_one_of_lt h)

/-- What stands in a field of a date: digits, and a plus. -/
def IsDateChar (c : Char) : Prop :=
  isDigit c = true ∨ c = '+'

instance : DecidablePred IsDateChar := fun c =>
  inferInstanceAs (Decidable (isDigit c = true ∨ c = '+'))

theorem IsDateChar.beq (hc : IsDateChar c) (hx : ¬IsDateChar x) : (c == x) = false := by
  rw [beq_eq_false_iff_ne]
  rintro rfl
  exact hx hc

theorem IsDateChar.not_isBlank (hc : IsDateChar c) : isBlank c = false := by
  rcases hc with hc | rfl
  · exact not_isBlank_of_isDigit hc
  · decide

/-- The characters of a year that is not negative. -/
theorem mem_yearChars {year : Int} (hyear : 0 ≤ year) (hc : c ∈ yearChars year) :
    IsDateChar c := by
  rw [Instant.yearChars, if_neg (Int.not_lt.2 hyear)] at hc
  split at hc
  · rcases List.mem_cons.1 hc with rfl | hc
    · exact .inr rfl
    · exact .inl (isDigit_of_mem_padded hc)
  · exact .inl (isDigit_of_mem_padded hc)

/-- A year that is not negative is read back, with or without its plus. -/
theorem signed?_yearChars {year : Int} (hyear : 0 ≤ year) (hlast : year ≤ 262142) :
    signed? 32 (yearChars year) = some year := by
  have hdigits : splitSign (padded 4 year.natAbs) = (false, padded 4 year.natAbs) :=
    splitSign_of_not_mem (fun hc => absurd (isDigit_of_mem_padded hc) (by decide))
      fun hc => absurd (isDigit_of_mem_padded hc) (by decide)
  have hsign : splitSign (yearChars year) = (false, padded 4 year.natAbs) := by
    rw [yearChars, if_neg (Int.not_lt.2 hyear)]
    split
    · rfl
    · exact hdigits
  have hsize : (year.natAbs : Int) = year := Int.natAbs_of_nonneg hyear
  rw [signed?, hsign]
  dsimp only
  rw [natural?_padded]
  change Option.filter _ (some (year.natAbs : Int)) = _
  rw [hsize]
  apply Option.filter_eq_some_iff.2
  simp
  omega

/-- The written date: the year, the month and the day. -/
def dateChars (d : Date) : List Char :=
  yearChars d.year ++ '-' :: (padded 2 d.month ++ '-' :: padded 2 d.day)

/-- The written time of day, with three places after the second. -/
def clockChars (c : Clock) : List Char :=
  padded 2 c.hour ++ ':' :: (padded 2 c.minute ++ ':' ::
    (padded 2 c.second ++ '.' :: padded 3 (c.nanos / 1000000)))

variable {d : Date} {k : Clock}

theorem split_dateChars (hyear : 0 ≤ d.year) :
    split (· == '-') (dateChars d) = [yearChars d.year, padded 2 d.month, padded 2 d.day] := by
  have hfield (n : Nat) : ∀ c ∈ padded 2 n, (c == '-') = false :=
    fun c hc => beq_of_isDigit (isDigit_of_mem_padded hc) (by decide)
  have hsigned : ∀ c ∈ yearChars d.year, (c == '-') = false :=
    fun c hc => (mem_yearChars hyear hc).beq (by decide)
  have hcut (s t : List Char) :
      split (· == '-') (s ++ '-' :: t) = split (· == '-') s ++ split (· == '-') t :=
    split_append_cons s t (beq_self_eq_true '-')
  rw [dateChars, hcut, hcut, split_of_forall hsigned, split_of_forall (hfield _),
    split_of_forall (hfield _)]
  rfl

theorem date?_eq_some {date : Date} {y m d : List Char}
    (hy : signed? 32 (trimBy isBlank y) = some date.year) (hm : fieldNumber? m = some date.month)
    (hd : fieldNumber? d = some date.day) (hvalid : date.isValid = true)
    (hfirst : -262143 ≤ date.year) (hlast : date.year ≤ 262142) :
    date? [y, m, d] = some date := by
  simp only [date?, List.getElem?_cons_zero, List.getElem?_cons_succ, fieldOr, Option.bind_eq_bind,
    Option.bind_some, hy, hm, hd]
  rw [if_pos ⟨hvalid, hfirst, hlast⟩]

theorem date?_dateChars (hd : d.isValid = true) (hyear : 0 ≤ d.year) (hlast : d.year ≤ 262142) :
    date? [yearChars d.year, padded 2 d.month, padded 2 d.day] = some d := by
  have hsigned : trimBy isBlank (yearChars d.year) = yearChars d.year :=
    (bare_of_forall fun c hc => (mem_yearChars hyear hc).not_isBlank).trimBy_eq
  have hvalid := hd
  simp only [Date.isValid, Bool.and_eq_true, decide_eq_true_eq] at hvalid
  obtain ⟨⟨⟨-, hmonth⟩, -⟩, -⟩ := hvalid
  have hday := Date.day_le_of_isValid hd
  have hyear' : signed? 32 (trimBy isBlank (yearChars d.year)) = some d.year := by
    rw [hsigned]
    exact signed?_yearChars hyear hlast
  exact date?_eq_some hyear' (fieldNumber?_padded 2 (by omega)) (fieldNumber?_padded 2 (by omega)) hd
    (by omega) hlast

/-- Three places are the nanoseconds of a whole millisecond. -/
theorem secondAndNanos?_padded {second millis : Nat} (hsecond : second < 2 ^ 32)
    (hmillis : millis < 1000) :
    secondAndNanos? (padded 2 second ++ '.' :: padded 3 millis) =
      some (second, millis * 1000000) := by
  have hpoint : ∀ c ∈ padded 2 second, (c == '.') = false :=
    fun c hc => beq_of_isDigit (isDigit_of_mem_padded hc) (by decide)
  have hplaces : (padded 3 millis).all isDigit = true :=
    List.all_eq_true.2 fun c hc => isDigit_of_mem_padded hc
  have hnine : (padded 3 millis ++ List.replicate 9 '0').take 9 =
      padded 3 millis ++ List.replicate 6 '0' := by
    rw [List.take_append, length_padded (by decide) hmillis, List.take_of_length_le]
    · rfl
    · rw [length_padded (by decide) hmillis]
      decide
  have hdigits : ∀ c ∈ padded 3 millis ++ List.replicate 6 '0', isDigit c = true := by
    refine List.forall_mem_append.2 ⟨fun _ => isDigit_of_mem_padded, fun c hc => ?_⟩
    rw [List.eq_of_mem_replicate hc]
    rfl
  have hnanos : digitsFrom? 0 ((padded 3 millis ++ List.replicate 9 '0').take 9) =
      some (millis * 1000000) := by
    rw [hnine, digitsFrom?_eq_some hdigits, Nat.ofDigitChars_append, ofDigitChars_padded,
      Nat.ofDigitChars_replicate_zero, Nat.mul_comm]
  have hwhole : unsigned? (Nat.pow 2 32 - 1) (padded 2 second) = some second :=
    unsigned?_padded (Nat.le_sub_one_of_lt hsecond)
  simp only [secondAndNanos?, cut?_append_cons hpoint (beq_self_eq_true _), Option.getD_some,
    Option.bind_eq_bind, hwhole, Option.bind_some, hplaces, if_true, hnanos]
  rfl

theorem split_clockChars :
    split (· == ':') (clockChars k) = [padded 2 k.hour, padded 2 k.minute,
      padded 2 k.second ++ '.' :: padded 3 (k.nanos / 1000000)] := by
  have hfield (w n : Nat) : ∀ c ∈ padded w n, (c == ':') = false :=
    fun c hc => beq_of_isDigit (isDigit_of_mem_padded hc) (by decide)
  have hlast : ∀ c ∈ padded 2 k.second ++ '.' :: padded 3 (k.nanos / 1000000),
      (c == ':') = false :=
    List.forall_mem_append.2 ⟨hfield _ _, List.forall_mem_cons.2 ⟨by decide, hfield _ _⟩⟩
  have hcut (s t : List Char) :
      split (· == ':') (s ++ ':' :: t) = split (· == ':') s ++ split (· == ':') t :=
    split_append_cons s t (beq_self_eq_true ':')
  rw [clockChars, hcut, hcut, split_of_forall (hfield _ _), split_of_forall (hfield _ _),
    split_of_forall hlast]
  rfl

/-- The written time of day is read without the parts of its millisecond. -/
theorem clock?_clockChars (hk : k.isValid = true) :
    clock? [padded 2 k.hour, padded 2 k.minute,
      padded 2 k.second ++ '.' :: padded 3 (k.nanos / 1000000)] =
        some { k with nanos := k.nanos / 1000000 * 1000000 } := by
  have hvalid := hk
  simp only [Clock.isValid, Bool.and_eq_true, decide_eq_true_eq] at hvalid
  obtain ⟨⟨⟨hhour, hminute⟩, hsecond⟩, hnanos⟩ := hvalid
  have hvisible : ∀ c ∈ padded 2 k.second ++ '.' :: padded 3 (k.nanos / 1000000),
      isBlank c = false := by
    rw [List.forall_mem_append, List.forall_mem_cons]
    exact ⟨fun _ => not_isBlank_of_mem_padded, by decide, fun _ => not_isBlank_of_mem_padded⟩
  have hmillis : Clock.isValid { k with nanos := k.nanos / 1000000 * 1000000 } = true := by
    simp only [Clock.isValid, Bool.and_eq_true, decide_eq_true_eq]
    omega
  simp only [clock?, List.getElem?_cons_zero, List.getElem?_cons_succ, fieldOr,
    Option.bind_eq_bind, Option.bind_some, (bare_of_forall hvisible).trimBy_eq,
    fieldNumber?_padded 2 (show k.hour < 2 ^ 32 by omega),
    fieldNumber?_padded 2 (show k.minute < 2 ^ 32 by omega),
    secondAndNanos?_padded (show k.second < 2 ^ 32 by omega)
      (show k.nanos / 1000000 < 1000 by omega)]
  rw [if_pos hmillis]

/-- A negative year has a minus before its digits. -/
theorem yearChars_of_neg {year : Int} (hyear : year < 0) :
    yearChars year = '-' :: padded 4 year.natAbs := by
  rw [Instant.yearChars, if_pos hyear]

theorem mem_dateChars (hc : c ∈ dateChars d) : isDigit c = true ∨ c = '+' ∨ c = '-' := by
  rw [dateChars, List.mem_append, List.mem_cons, List.mem_append, List.mem_cons] at hc
  rcases hc with hc | rfl | hc | rfl | hc
  · rcases lt_or_ge d.year 0 with hyear | hyear
    · rw [yearChars_of_neg hyear] at hc
      rcases List.mem_cons.1 hc with rfl | hc
      · exact .inr (.inr rfl)
      · exact .inl (isDigit_of_mem_padded hc)
    · exact (mem_yearChars hyear hc).imp_right .inl
  · exact .inr (.inr rfl)
  · exact .inl (isDigit_of_mem_padded hc)
  · exact .inr (.inr rfl)
  · exact .inl (isDigit_of_mem_padded hc)

theorem mem_clockChars (hc : c ∈ clockChars k) : isDigit c = true ∨ c = ':' ∨ c = '.' := by
  simp only [clockChars, List.mem_append, List.mem_cons] at hc
  rcases hc with hc | rfl | hc | rfl | hc | rfl | hc
  · exact .inl (isDigit_of_mem_padded hc)
  · exact .inr (.inl rfl)
  · exact .inl (isDigit_of_mem_padded hc)
  · exact .inr (.inl rfl)
  · exact .inl (isDigit_of_mem_padded hc)
  · exact .inr (.inr rfl)
  · exact .inl (isDigit_of_mem_padded hc)

end Fields

theorem clockOf_clockChars {k : Clock} (hk : k.isValid = true) :
    clockOf (clockChars k) = .ok { k with nanos := k.nanos / 1000000 * 1000000 } := by
  have hoffset : ∀ c ∈ clockChars k, (c == '+' || c == '-') = false := by
    intro c hc
    rcases mem_clockChars hc with hc | rfl | rfl
    · rw [beq_of_isDigit hc (by decide), beq_of_isDigit hc (by decide)]
      rfl
    · decide
    · decide
  rw [clockOf, cut?_of_forall hoffset]
  dsimp only
  rw [split_clockChars, if_neg (by simp)]
  rw [clock?_clockChars hk]

theorem toList_gml (i : Instant) :
    i.gml.toList = dateChars i.date ++ 'T' :: clockChars i.clock ++ ['Z'] := by
  rw [gml, String.toList_ofList, wholeChars, dateChars, clockChars, nanos_clock]
  simp

theorem not_isBlank_of_mem_dateChars {d : Date} {c : Char} (hc : c ∈ dateChars d) :
    isBlank c = false := by
  rcases mem_dateChars hc with hc | rfl | rfl
  · exact not_isBlank_of_isDigit hc
  · decide
  · decide

theorem not_isBlank_of_mem_clockChars {k : Clock} {c : Char} (hc : c ∈ clockChars k) :
    isBlank c = false := by
  rcases mem_clockChars hc with hc | rfl | rfl
  · exact not_isBlank_of_isDigit hc
  · decide
  · decide

variable {i : Instant}

theorem trim_gml (i : Instant) : trim i.gml = i.gml := by
  refine trim_of_forall_not_isBlank ?_
  rw [toList_gml, List.forall_mem_append, List.forall_mem_append, List.forall_mem_cons]
  exact ⟨⟨fun _ => not_isBlank_of_mem_dateChars, by decide,
    fun _ => not_isBlank_of_mem_clockChars⟩, by decide⟩

/-- The zone is passed over, and the date ends where the time of day begins. -/
theorem withoutZone_gml (i : Instant) :
    withoutZone i.gml.toList = dateChars i.date ++ 'T' :: clockChars i.clock := by
  have hvisible : ∀ c ∈ dateChars i.date ++ 'T' :: clockChars i.clock, isBlank c = false := by
    rw [List.forall_mem_append, List.forall_mem_cons]
    exact ⟨fun _ => not_isBlank_of_mem_dateChars, by decide,
      fun _ => not_isBlank_of_mem_clockChars⟩
  have hzone := withoutZone_append (b := []) (bare_of_forall hvisible) (by simp) (by simp)
    (show ['Z'] ∈ zoneNames by decide)
  rwa [List.append_nil, ← toList_gml] at hzone

/-- No `T` stands in a date. -/
theorem beq_of_mem_dateChars {d : Date} : ∀ c ∈ dateChars d, (c == 'T') = false := by
  intro c hc
  rcases mem_dateChars hc with hc | rfl | rfl
  · exact beq_of_isDigit hc (by decide)
  · decide
  · decide

/-- The time position of an instant is read as the instant to the millisecond. -/
theorem parsePosition_gml (hi : 0 ≤ i.date.year) : parsePosition i.gml = .ok i.toMilli := by
  have hmilli : ofDateAndClock? i.date
      { i.clock with nanos := i.clock.nanos / 1000000 * 1000000 } = some i.toMilli := by
    rw [← date_toMilli, ← clock_toMilli]
    exact ofDateAndClock?_date_clock _
  rw [parsePosition, mapError_eq_ok_iff, positionOf, withoutZone_gml]
  dsimp only
  rw [if_neg (by simp), cut?_append_cons beq_of_mem_dateChars (beq_self_eq_true _)]
  dsimp only
  rw [split_dateChars hi, if_neg (by simp), if_neg (by simp),
    date?_dateChars i.isValid_date hi i.year_bounds.2]
  dsimp only
  rw [clockOf_clockChars i.isValid_clock, ok_bind, hmilli]

end Time

end CoverageAccess
