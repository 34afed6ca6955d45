import CoverageAccess.Proofs.Time.Form
import CoverageAccess.Time.Units
/-!
# Epochs and time positions

An epoch after `since` is read like a time position, as far as it has no numeric offset: the reader of
positions passes an offset over, and the reader of epochs can read no time of day with one and takes
midnight. So the two agree on a complete position without blanks exactly if it has no offset or names
a midnight (`epoch_since`).
-/

namespace CoverageAccess

namespace Time

open Instant Number Text

section LastWord

variable {word s t rest : List Char}

theorem afterLast?_append (h : afterLast? word t = some rest) :
    afterLast? word (s ++ t) = some rest := by
  induction s with
  | nil => exact h
  | cons c s ih => rw [List.cons_append, afterLast?, ih, Option.some_or]

theorem afterLast?_eq_none (h : ¬word <:+: s) : afterLast? word s = none := by
  have hstart (t : List Char) (ht : ¬word <:+: t) : dropStart? word t = none := by
    rw [Option.eq_none_iff_forall_ne_some]
    intro rest hrest
    rw [dropStart?_eq_some_iff.1 hrest] at ht
    exact ht (List.prefix_append word rest).isInfix
  induction s with
  | nil => exact hstart [] h
  | cons c s ih =>
      rw [afterLast?, ih fun hs => h (hs.trans (List.suffix_cons c s).isInfix), hstart _ h]
      rfl

/-- The last `since` is the one before a text that has none. -/
theorem afterLast?_since (unit : String) {p : String} (h : ¬"since".toList <:+: p.toList) :
    afterLast? "since".toList (unit ++ " since " ++ p).toList = some (' ' :: p.toList) := by
  have hnone := afterLast?_eq_none h
  have hafter : afterLast? "since".toList ("since".toList ++ ' ' :: p.toList) =
      some (' ' :: p.toList) := by
    change afterLast? ['s', 'i', 'n', 'c', 'e'] p.toList = none at hnone
    simp [afterLast?, dropStart?, hnone]
  have htext : (unit ++ " since " ++ p).toList =
      (unit.toList ++ [' ']) ++ ("since".toList ++ ' ' :: p.toList) := by simp
  rw [htext]
  exact afterLast?_append hafter

end LastWord

section Readable

variable {s : List Char} {c : Char}

/-- The field can be read as a number, or as a second with its fraction. -/
def IsReadable (s : List Char) : Prop :=
  (∃ n, fieldNumber? s = some n) ∨ ∃ r, secondAndNanos? (trimBy isBlank s) = some r

theorem isReadable_of_clock? {fields : List (List Char)} {k : Clock} (h : clock? fields = some k)
    (hlength : fields.length ≤ 3) : ∀ f ∈ fields, IsReadable f := by
  obtain ⟨first, hfirst, h⟩ := Option.bind_eq_some_iff.1 h
  obtain ⟨hour, hhour, h⟩ := Option.bind_eq_some_iff.1 h
  obtain ⟨minute, hminute, h⟩ := Option.bind_eq_some_iff.1 h
  intro f hf
  obtain ⟨j, hj⟩ := List.mem_iff_getElem?.1 hf
  have hbound : j < fields.length := (List.getElem?_eq_some_iff.1 hj).1
  match j, hbound.trans_le hlength with
  | 0, _ =>
      rw [hfirst] at hj
      cases hj
      exact .inl ⟨hour, hhour⟩
  | 1, _ =>
      rw [hj] at hminute
      exact .inl ⟨minute, hminute⟩
  | 2, _ =>
      rw [hj] at h
      obtain ⟨r, hr, -⟩ := Option.bind_eq_some_iff.1 h
      exact .inr ⟨r, hr⟩

theorem mem_dropPlus_of_mem_tail (h : c ∈ s.tail) : c ∈ dropPlus s := by
  unfold dropPlus
  split
  next => exact h
  next => exact List.mem_of_mem_tail h

/-- An unsigned number has digits after its first character. -/
theorem isDigit_of_unsigned? {bound n : Nat} (h : unsigned? bound s = some n) :
    s ≠ [] ∧ ∀ c ∈ s.tail, isDigit c = true := by
  have hnatural := (Option.filter_eq_some_iff.1 h).1
  constructor
  · rintro rfl
    cases hnatural
  · intro c hc
    exact isDigit_of_mem_of_natural? hnatural c (mem_dropPlus_of_mem_tail hc)

/-- The whole seconds are an unsigned number, and after them there are only digits and the point. -/
theorem exists_of_secondAndNanos? {r : Nat × Nat} (h : secondAndNanos? s = some r) :
    ∃ whole rest, s = whole ++ rest ∧ (∃ bound n, unsigned? bound whole = some n) ∧
      ∀ c ∈ rest, isDigit c = true ∨ c = '.' := by
  obtain ⟨second, hsecond, h⟩ := Option.bind_eq_some_iff.1 h
  cases hcut : cut? (· == '.') s with
  | none =>
      rw [hcut] at hsecond
      exact ⟨s, [], (List.append_nil s).symm, ⟨_, second, hsecond⟩, by simp⟩
  | some parts =>
      rw [hcut] at hsecond h
      obtain ⟨whole, places⟩ := parts
      obtain ⟨point, hpoint, rfl, -⟩ := exists_of_cut? hcut
      rw [beq_iff_eq] at hpoint
      subst hpoint
      dsimp only [Option.getD_some] at h
      split at h
      next hplaces =>
        refine ⟨whole, _, rfl, ⟨_, second, hsecond⟩, List.forall_mem_cons.2 ⟨.inr rfl, fun c hc => ?_⟩⟩
        exact .inl (List.all_eq_true.1 hplaces c hc)
      next => cases h

theorem isDigit_of_secondAndNanos? {r : Nat × Nat} (h : secondAndNanos? s = some r) :
    s ≠ [] ∧ ∀ c ∈ s.tail, isDigit c = true ∨ c = '.' := by
  obtain ⟨whole, rest, rfl, ⟨bound, n, hwhole⟩, hrest⟩ := exists_of_secondAndNanos? h
  obtain ⟨hne, hdigits⟩ := isDigit_of_unsigned? hwhole
  refine ⟨List.append_ne_nil_of_left_ne_nil hne _, fun c hc => ?_⟩
  rw [List.tail_append_of_ne_nil hne, List.mem_append] at hc
  exact hc.elim (fun hc => .inl (hdigits c hc)) (hrest c)

/-- A readable field holds something, and nothing but digits and a point after its first
character. -/
theorem IsReadable.tail (h : IsReadable s) : trimBy isBlank s ≠ [] ∧
    ∀ c ∈ (trimBy isBlank s).tail, isDigit c = true ∨ c = '.' := by
  rcases h with ⟨n, hn⟩ | ⟨r, hr⟩
  · obtain ⟨hne, htail⟩ := isDigit_of_unsigned? hn
    exact ⟨hne, fun c hc => .inl (htail c hc)⟩
  · exact isDigit_of_secondAndNanos? hr

/-- No time of day can be read from a text that has one before a numeric offset. -/
theorem clock?_eq_none_of_offset {k : Clock} (hvisible : ∀ c ∈ s, isBlank c = false)
    (hclock : clockOf s = .ok k) (hsign : ∃ c ∈ s, (c == '+' || c == '-') = true)
    (hlength : (split (· == ':') s).length ≤ 3) : clock? (split (· == ':') s) = none := by
  rw [Option.eq_none_iff_forall_ne_some]
  intro k' hk'
  have hreadable := isReadable_of_clock? hk' hlength
  cases hcut : cut? (fun c => c == '+' || c == '-') s with
  | none =>
      obtain ⟨c, hc, hsign⟩ := hsign
      rw [cut?_eq_none_iff.1 hcut c hc] at hsign
      cases hsign
  | some parts =>
      obtain ⟨before, after⟩ := parts
      obtain ⟨x, hx, rfl, -⟩ := exists_of_cut? hcut
      have hother : isDigit x = false ∧ x ≠ '.' ∧ (x == ':') = false := by
        rw [Bool.or_eq_true, beq_iff_eq, beq_iff_eq] at hx
        rcases hx with rfl | rfl <;> decide
      obtain ⟨hlength', hclock⟩ := clockOf_eq_ok_iff.1 hclock
      rw [withoutOffset, hcut] at hlength' hclock
      obtain ⟨fields, last, first, fields', hbefore, hafter, hsplit⟩ :=
        split_append (· == ':') before (x :: after)
      obtain ⟨w, ws, hfirst⟩ := exists_split_cons (p := (· == ':')) after hother.2.2
      obtain ⟨rfl, rfl⟩ := List.cons_eq_cons.1 (hafter.symm.trans hfirst)
      have hlast : IsReadable last :=
        isReadable_of_clock? hclock hlength' last (by rw [hbefore]; simp)
      -- the sign is within the field, because the time of day before it does not end in a colon
      have hmem : last ++ x :: w ∈ split (· == ':') (before ++ x :: after) := by
        rw [hsplit]
        simp
      have hbare : trimBy isBlank (last ++ x :: w) = last ++ x :: w :=
        (bare_of_forall fun c hc => hvisible c (mem_of_mem_split hmem c hc)).trimBy_eq
      have hne : last ≠ [] := by
        rintro rfl
        exact hlast.tail.1 rfl
      have htail := (hreadable _ hmem).tail.2 x
      rw [hbare, List.tail_append_of_ne_nil hne] at htail
      rcases htail (by simp) with hdigit | hpoint
      · rw [hother.1] at hdigit
        cases hdigit
      · exact hother.2.1 hpoint

end Readable

section Offset

variable {s t : List Char} {d : Date} {c k : Clock}

/-- A sign stands after a `T`, where a time position has its numeric offset. -/
def HasOffset (s : List Char) : Prop :=
  ∃ c ∈ s.dropWhile (· != 'T'), (c == '+' || c == '-') = true

instance : DecidablePred HasOffset := fun s =>
  inferInstanceAs (Decidable (∃ c ∈ s.dropWhile (· != 'T'), (c == '+' || c == '-') = true))

theorem not_hasOffset_of_cut?_eq_none (h : cut? (· == 'T') s = none) : ¬HasOffset s := by
  have hnil : s.dropWhile (· != 'T') = [] := by
    rw [List.dropWhile_eq_nil_iff]
    intro c hc
    rw [bne, cut?_eq_none_iff.1 h c hc]
    rfl
  rintro ⟨c, hc, -⟩
  rw [hnil] at hc
  cases hc

theorem hasOffset_iff_of_cut?_eq_some {datePart clockPart : List Char}
    (h : cut? (· == 'T') s = some (datePart, clockPart)) :
    HasOffset s ↔ ∃ c ∈ clockPart, (c == '+' || c == '-') = true := by
  obtain ⟨x, hx, rfl, hdate⟩ := exists_of_cut? h
  rw [beq_iff_eq] at hx
  subst hx
  have hdrop : (datePart ++ 'T' :: clockPart).dropWhile (· != 'T') = 'T' :: clockPart := by
    rw [List.dropWhile_append_of_pos]
    · rfl
    · intro c hc
      rw [bne, hdate c hc]
      rfl
  rw [HasOffset, hdrop, List.exists_mem_cons_iff]
  exact or_iff_right (by decide)

/-- Text without a sign gives no offset to the text before it. -/
theorem hasOffset_append {r : List Char} (hr : ∀ c ∈ r, ¬(c == '+' || c == '-') = true) :
    HasOffset (s ++ r) ↔ HasOffset s := by
  rw [HasOffset, HasOffset, List.dropWhile_append]
  split
  next hnil =>
    rw [List.isEmpty_iff.1 hnil]
    constructor
    · rintro ⟨c, hc, hx⟩
      exact absurd hx (hr c ((List.dropWhile_suffix _).subset hc))
    · rintro ⟨c, hc, -⟩
      cases hc
  next =>
    constructor
    · rintro ⟨c, hc, hx⟩
      exact ⟨c, (List.mem_append.1 hc).resolve_right fun hc => hr c hc hx, hx⟩
    · rintro ⟨c, hc, hx⟩
      exact ⟨c, List.mem_append_left r hc, hx⟩

/-- No zone name has a sign. -/
theorem not_sign_of_mem_zone {z : List Char} (hz : z ∈ zoneNames) :
    ∀ c ∈ z, ¬(c == '+' || c == '-') = true := by
  revert z
  decide

/-- The fields of the date, which a `T` ends. -/
def dateFields (s : List Char) : List (List Char) :=
  split (· == '-') (s.takeWhile (· != 'T'))

theorem length_dateFields_append_zone {z : List Char} (hz : z ∈ zoneNames) :
    (dateFields (s ++ z)).length = (dateFields s).length := by
  have hzone : ∀ z ∈ zoneNames, (z.takeWhile (· != 'T')).countP (· == '-') = 0 := by decide
  rw [dateFields, dateFields, length_split, length_split, List.takeWhile_append]
  split
  next hall =>
    rw [List.countP_append, hzone z hz, (List.takeWhile_prefix _).eq_of_length hall]
  next => rfl

/-- The time of day that is read after the date of an epoch. -/
theorem epochClock_eq (hvisible : ∀ c ∈ s, isBlank c = false) (hclock : clockOf s = .ok c) :
    (if s = [] ∨ 3 < (split (· == ':') s).length then none else clock? (split (· == ':') s)) =
      if ∃ x ∈ s, (x == '+' || x == '-') = true then none else some c := by
  by_cases hsign : ∃ x ∈ s, (x == '+' || x == '-') = true
  · rw [if_pos hsign]
    split
    next => rfl
    next h => exact clock?_eq_none_of_offset hvisible hclock hsign (by omega)
  · have hcut : cut? (fun x => x == '+' || x == '-') s = none :=
      cut?_of_forall fun x hx => Bool.eq_false_iff.2 fun h => hsign ⟨x, hx, h⟩
    obtain ⟨hlength, hread⟩ := clockOf_eq_ok_iff.1 hclock
    rw [withoutOffset, hcut] at hlength hread
    have hne : s ≠ [] := by
      rintro rfl
      cases hread
    rw [if_neg hsign, if_neg (not_or.2 ⟨hne, Nat.not_lt.2 hlength⟩)]
    exact hread

/-- The epoch of a text without blanks has the date of the position, and its time of day if there is no
offset. -/
theorem epochOf?_of_holds (hvisible : ∀ c ∈ withoutZone s, isBlank c = false)
    (hholds : Holds (withoutZone s) d c) (hcomplete : (dateFields (withoutZone s)).length = 3) :
    epochOf? s = ofDateAndClock? d (if HasOffset (withoutZone s) then .midnight else c) := by
  have hblank : ∀ c ∈ withoutZone s, (c == ' ' || c == 'T') = (c == 'T') := by
    intro c hc
    have hne : c ≠ ' ' := by
      rintro rfl
      exact absurd (hvisible ' ' hc) (by decide)
    rw [beq_eq_false_iff_ne.2 hne]
    rfl
  cases hholds with
  | date hcut hlength hdate =>
      have hall : (withoutZone s).takeWhile (· != 'T') = withoutZone s := by
        rw [List.takeWhile_eq_self_iff]
        intro c hc
        rw [bne, cut?_eq_none_iff.1 hcut c hc]
        rfl
      rw [dateFields, hall] at hcomplete
      simp only [epochOf?, cut?_congr hblank, hcut]
      rw [if_pos hcomplete, hdate, ite_self]
      rfl
  | @dateAndClock datePart clockPart _ hcut hlength hdate hclock =>
      obtain ⟨x, hx, htext, -⟩ := exists_of_cut? hcut
      have hvisible' : ∀ c ∈ clockPart, isBlank c = false := fun c hc =>
        hvisible c (by rw [htext]; simp [hc])
      have hbare : trimBy isBlank clockPart = clockPart := (bare_of_forall hvisible').trimBy_eq
      simp only [epochOf?, cut?_congr hblank, hcut, hbare, Option.bind_some]
      rw [if_pos hlength, hdate, Option.bind_eq_bind, Option.bind_some,
        epochClock_eq hvisible' hclock]
      simp only [hasOffset_iff_of_cut?_eq_some hcut]
      split <;> rfl

/-- Without its zone name, a text without blanks has the same date and the same offset. -/
theorem withoutZone_keeps (hs : ∀ c ∈ s, isBlank c = false) :
    (∀ c ∈ withoutZone s, isBlank c = false) ∧ (HasOffset (withoutZone s) ↔ HasOffset s) ∧
      (dateFields (withoutZone s)).length = (dateFields s).length := by
  rcases withoutZone_cases (bare_of_forall hs) with hsame | ⟨b, hb, z, hz, happend⟩
  · rw [hsame]
    exact ⟨hs, Iff.rfl, rfl⟩
  · have hnone : b = [] := by
      refine List.eq_nil_iff_forall_not_mem.2 fun c hc => ?_
      have hmem : c ∈ s := by
        rw [happend]
        exact List.mem_append_left z (List.mem_append_right _ hc)
      have hvisible := hs c hmem
      rw [hb c hc] at hvisible
      cases hvisible
    rw [hnone, List.append_nil] at happend
    refine ⟨fun c hc => hs c ?_, ?_, ?_⟩
    · rw [happend]
      exact List.mem_append_left z hc
    · conv_rhs => rw [happend]
      exact (hasOffset_append (not_sign_of_mem_zone hz)).symm
    · conv_rhs => rw [happend]
      exact (length_dateFields_append_zone hz).symm

/-- The epoch after `since` is the instant of the date and of what the epoch reads of the time of
day. -/
theorem epoch_of_holds (unit : String) {p : String} {i : Instant}
    (hvisible : ∀ c ∈ p.toList, isBlank c = false) (hdate : (dateFields p.toList).length = 3)
    (hsince : ¬"since".toList <:+: p.toList) (hholds : Holds (withoutZone p.toList) d c)
    (hi : ofDateAndClock? d (if HasOffset p.toList then .midnight else c) = some i) :
    epoch (unit ++ " since " ++ p) = i := by
  obtain ⟨hvisible', hoffset, hdate'⟩ := withoutZone_keeps hvisible
  have hzone : withoutZone (' ' :: p.toList) = withoutZone p.toList := by
    refine withoutZone_of_trimBy_eq ?_
    have htrim := trimBy_append_append (p := isBlank) (a := [' ']) (s := p.toList) (b := [])
      (by decide) (by decide)
    rwa [List.append_nil] at htrim
  rw [← hzone] at hvisible' hholds hdate' hoffset
  rw [epoch, afterLast?_since unit hsince, Option.bind_some,
    epochOf?_of_holds hvisible' hholds (hdate'.trans hdate)]
  simp only [hoffset, hi, Option.getD_some]

end Offset

/-- An epoch is read like a complete position without blanks that has no offset; of a position with an
offset it is the beginning of the day. -/
theorem epoch_since (unit p : String) (i : Instant) (hp : parsePosition p = .ok i)
    (hvisible : ∀ c ∈ p.toList, isBlank c = false) (hdate : (dateFields p.toList).length = 3)
    (hsince : ¬"since".toList <:+: p.toList) :
    (¬HasOffset p.toList → epoch (unit ++ " since " ++ p) = i) ∧
      (HasOffset p.toList → (epoch (unit ++ " since " ++ p)).nanos = i.nanos / day * day) ∧
      (epoch (unit ++ " since " ++ p) = i ↔ (HasOffset p.toList → i.nanos % day = 0)) := by
  obtain ⟨d, c, hholds, hi⟩ := parsePosition_eq_ok_iff.1 hp
  have hwithout (h : ¬HasOffset p.toList) : epoch (unit ++ " since " ++ p) = i :=
    epoch_of_holds unit hvisible hdate hsince hholds (by rwa [if_neg h])
  have hwith (h : HasOffset p.toList) :
      (epoch (unit ++ " since " ++ p)).nanos = i.nanos / day * day := by
    obtain ⟨⟨hvalid, hfirst, hlast⟩, -⟩ := hholds.bounds
    obtain ⟨j, hj⟩ := exists_ofDateAndClock? (c := .midnight) hvalid rfl hfirst hlast
    rw [epoch_of_holds unit hvisible hdate hsince hholds (i := j) (by rwa [if_pos h])]
    exact nanos_midnight hi hj
  have hself : i.nanos / day * day = i.nanos ↔ i.nanos % day = 0 := by
    rw [day_eq]
    omega
  refine ⟨hwithout, hwith, fun h hoffset => ?_, fun h => ?_⟩
  · rw [← hself, ← hwith hoffset, h]
  · by_cases hoffset : HasOffset p.toList
    · exact eq_of_nanos ((hwith hoffset).trans (hself.2 (h hoffset)))
    · exact hwithout hoffset

/-- Ten o'clock of 1 January 2000. -/
def newYearMorning : Instant := ⟨946720800000000000, by decide, by decide⟩

/-- With an offset the time of day is dropped, so that the epoch is not the position. -/
theorem epoch_since_newYearMorning :
    (parsePosition "2000-01-01T10:00:00.0Z" = .ok newYearMorning ∧
      epoch "hours since 2000-01-01T10:00:00.0Z" = newYearMorning) ∧
    parsePosition "2000-01-01T10:00:00+02:00" = .ok newYearMorning ∧
      (epoch "hours since 2000-01-01T10:00:00+02:00").nanos = 946684800000000000 ∧
        epoch "hours since 2000-01-01T10:00:00+02:00" ≠ newYearMorning := by
  have hzulu : parsePosition "2000-01-01T10:00:00.0Z" = .ok newYearMorning := by rfl
  have heast : parsePosition "2000-01-01T10:00:00+02:00" = .ok newYearMorning := by rfl
  have hoffset : HasOffset "2000-01-01T10:00:00+02:00".toList := by decide
  have hsince {s : List Char} (hs : 's' ∉ s) : ¬"since".toList <:+: s :=
    fun h => hs (h.subset (by decide))
  obtain ⟨hwithout, -, -⟩ := epoch_since "hours" "2000-01-01T10:00:00.0Z" newYearMorning hzulu
    (by decide) (by decide) (hsince (by decide))
  obtain ⟨-, hwith, hagree⟩ := epoch_since "hours" "2000-01-01T10:00:00+02:00" newYearMorning heast
    (by decide) (by decide) (hsince (by decide))
  have hmidnight : newYearMorning.nanos / day * day = 946684800000000000 := by decide
  refine ⟨⟨hzulu, hwithout (by decide)⟩, heast, (hwith hoffset).trans hmidnight, fun h => ?_⟩
  exact absurd (hagree.1 h hoffset) (by decide)

end Time

end CoverageAccess
