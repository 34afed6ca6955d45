import CoverageAccess.Proofs.Time.Epoch
/-!
# Zone names that are given twice

The reader of positions passes over one zone name. So a position that already has one is unreadable
with another one after it, unless it has a numeric offset, which hides all that follows
(`parsePosition_append_zulu`). Without a zone name of its own a position stays what it was.
-/

namespace CoverageAccess

namespace Text

variable {p : Char → Bool} {s : List Char} {c : Char}

/-- A later text after the cut is cut off with what follows the separator. -/
theorem cut?_append {a b : List Char} (h : cut? p s = some (a, b)) (r : List Char) :
    cut? p (s ++ r) = some (a, b ++ r) := by
  obtain ⟨c, hc, rfl, ha⟩ := exists_of_cut? h
  rw [List.append_assoc, List.cons_append, cut?_append_cons ha hc]

end Text

namespace Time

open Instant Number Text

variable {s r : List Char} {c w : Char} {d : Date} {k : Clock} {i : Instant}

theorem mem_of_unsigned? {bound n : Nat} (h : unsigned? bound s = some n) (hc : c ∈ s) :
    isDigit c = true ∨ c = '+' :=
  (mem_dropPlus_or hc).imp_left (isDigit_of_mem_of_natural? (Option.filter_eq_some_iff.1 h).1 c)

/-- A readable field has digits, a point and a plus and nothing else. -/
theorem IsReadable.mem (h : IsReadable s) (hc : c ∈ trimBy isBlank s) :
    isDigit c = true ∨ c = '.' ∨ c = '+' := by
  rcases h with ⟨n, hn⟩ | ⟨r, hr⟩
  · exact (mem_of_unsigned? hn hc).imp_right .inr
  · obtain ⟨whole, rest, hs, ⟨bound, n, hwhole⟩, hrest⟩ := exists_of_secondAndNanos? hr
    rw [hs, List.mem_append] at hc
    rcases hc with hc | hc
    · exact (mem_of_unsigned? hwhole hc).imp_right .inr
    · exact (hrest c hc).imp_right .inl

/-- A character that ends no number. -/
structure IsLetter (w : Char) : Prop where
  visible : isBlank w = false
  other : isDigit w = false ∧ w ≠ '.' ∧ w ≠ '+' ∧ w ≠ ':'

theorem exists_isLetter_of_zone {z : List Char} (hz : z ∈ zoneNames) :
    ∃ y w, z = y ++ [w] ∧ IsLetter w := by
  have hlast : ∀ z ∈ zoneNames, ∃ w ∈ z, z.getLast? = some w ∧ isBlank w = false ∧
      isDigit w = false ∧ w ≠ '.' ∧ w ≠ '+' ∧ w ≠ ':' := by decide
  obtain ⟨w, -, hlast, hvisible, hother⟩ := hlast z hz
  obtain ⟨y, hy⟩ := List.getLast?_eq_some_iff.1 hlast
  exact ⟨y, w, hy, hvisible, hother⟩

/-- Fields of which the last one ends in a letter are no time of day. -/
theorem clock?_eq_none_of_letter (hw : IsLetter w)
    (hlength : (split (· == ':') (s ++ [w])).length ≤ 3) :
    clock? (split (· == ':') (s ++ [w])) = none := by
  obtain ⟨hdigit, hpoint, hplus, hcolon⟩ := hw.other
  rw [Option.eq_none_iff_forall_ne_some]
  intro k hk
  obtain ⟨before, last, first, after, -, hw', hsplit⟩ := split_append (· == ':') s [w]
  obtain ⟨u, us, hfirst⟩ := exists_split_cons (p := (· == ':')) [] (beq_eq_false_iff_ne.2 hcolon)
  obtain ⟨rfl, -⟩ := List.cons_eq_cons.1 (hw'.symm.trans hfirst)
  have hmem : last ++ w :: u ∈ split (· == ':') (s ++ [w]) := by
    rw [hsplit]
    simp
  have hletter := (isReadable_of_clock? hk hlength _ hmem).mem (mem_trimBy (by simp) hw.visible)
  simp [hdigit, hpoint, hplus] at hletter

/-- A text with a `T` and no offset that ends in a letter holds nothing. -/
theorem not_holds_of_letter (hw : IsLetter w) (hT : 'T' ∈ s ++ [w]) (hoffset : ¬HasOffset (s ++ [w])) :
    ¬Holds (s ++ [w]) d k := by
  intro h
  cases h with
  | date hcut _ _ => exact absurd (cut?_eq_none_iff.1 hcut 'T' hT) (by simp)
  | @dateAndClock datePart clockPart _ hcut _ _ hclock =>
      rw [hasOffset_iff_of_cut?_eq_some hcut] at hoffset
      have hnone : cut? (fun c => c == '+' || c == '-') clockPart = none :=
        cut?_of_forall fun c hc => Bool.eq_false_iff.2 fun hx => hoffset ⟨c, hc, hx⟩
      obtain ⟨hlength, hclock⟩ := clockOf_eq_ok_iff.1 hclock
      rw [withoutOffset, hnone] at hlength hclock
      obtain ⟨x, -, hs, -⟩ := exists_of_cut? hcut
      rcases List.eq_nil_or_concat' clockPart with rfl | ⟨u, v, rfl⟩
      · cases hclock
      · rw [← List.cons_append, ← List.append_assoc] at hs
        obtain ⟨-, hv⟩ := List.append_inj' hs rfl
        cases hv
        dsimp only at hlength hclock
        rw [clock?_eq_none_of_letter hw hlength] at hclock
        cases hclock

/-- What follows an offset does not matter. -/
theorem Holds.append_of_hasOffset (h : Holds s d k) (hoffset : HasOffset s) (r : List Char) :
    Holds (s ++ r) d k := by
  cases h with
  | date hcut _ _ => exact absurd hoffset (not_hasOffset_of_cut?_eq_none hcut)
  | @dateAndClock datePart clockPart _ hcut hlength hdate hclock =>
      obtain ⟨c, hc, hx⟩ := (hasOffset_iff_of_cut?_eq_some hcut).1 hoffset
      have hbefore : withoutOffset (clockPart ++ r) = withoutOffset clockPart := by
        cases hsign : cut? (fun c => c == '+' || c == '-') clockPart with
        | none =>
            rw [cut?_eq_none_iff.1 hsign c hc] at hx
            cases hx
        | some parts => rw [withoutOffset, withoutOffset, cut?_append hsign, hsign]
      refine .dateAndClock (cut?_append hcut r) hlength hdate ?_
      rwa [clockOf_eq_ok_iff, hbefore, ← clockOf_eq_ok_iff]

/-- What is passed over at the end of a text has no sign. -/
theorem exists_withoutZone_append (hs : Bare isBlank s) :
    ∃ r, s = withoutZone s ++ r ∧ ∀ c ∈ r, ¬(c == '+' || c == '-') = true := by
  rcases withoutZone_cases hs with hsame | ⟨b, hblank, z, hz, happend⟩
  · exact ⟨[], by rw [hsame, List.append_nil], by simp⟩
  · refine ⟨b ++ z, by rwa [← List.append_assoc], ?_⟩
    refine List.forall_mem_append.2 ⟨fun c hc hx => ?_, not_sign_of_mem_zone hz⟩
    rw [Bool.or_eq_true, beq_iff_eq, beq_iff_eq] at hx
    have hsign := hblank c hc
    rcases hx with rfl | rfl <;> cases hsign

/-- The text ends in a zone name. -/
def EndsInZone (s : String) : Prop :=
  ∃ z ∈ zones, z.toList <:+ s.toList

instance : DecidablePred EndsInZone := fun s =>
  inferInstanceAs (Decidable (∃ z ∈ zones, z.toList <:+ s.toList))

/-- A zone name may be put after the text: it has none yet, or one behind a numeric offset. -/
def TakesZone (s : String) : Prop :=
  EndsInZone s → HasOffset s.toList

instance : DecidablePred TakesZone := fun s =>
  inferInstanceAs (Decidable (EndsInZone s → HasOffset s.toList))

/-- A position with a `T` stays what it is with a zone name after it if it takes one, and cannot be read
otherwise. -/
theorem parsePosition_append_zulu {s : String} (h : parsePosition s = .ok i) (hs : trim s = s)
    (hT : 'T' ∈ s.toList) :
    (TakesZone s → parsePosition (s ++ "Z") = .ok i) ∧
      (¬TakesZone s → ∃ f, parsePosition (s ++ "Z") = .error f) := by
  have hbare := trim_eq_self_iff.1 hs
  have hzone : withoutZone (s ++ "Z").toList = s.toList := by
    have happend := withoutZone_append (b := []) hbare (List.ne_nil_of_mem hT) (by simp)
      (show ['Z'] ∈ zoneNames by decide)
    rw [List.append_nil] at happend
    rwa [String.toList_append]
  obtain ⟨d, k, hholds, hi⟩ := parsePosition_eq_ok_iff.1 h
  constructor
  · intro htakes
    refine parsePosition_eq_ok_iff.2 ⟨d, k, ?_, hi⟩
    rw [hzone]
    by_cases hends : EndsInZone s
    · obtain ⟨r, hr, hsign⟩ := exists_withoutZone_append hbare
      have hoffset := htakes hends
      rw [hr, hasOffset_append hsign] at hoffset
      rw [hr]
      exact hholds.append_of_hasOffset hoffset r
    · have hnone : ∀ z ∈ zoneNames, ¬z <:+ trimBy isBlank s.toList := by
        intro z hz hsuffix
        obtain ⟨y, hy, rfl⟩ := exists_zone hz
        rw [hbare.trimBy_eq] at hsuffix
        exact hends ⟨y, hy, hsuffix⟩
      rwa [withoutZone_eq_trimBy hnone, hbare.trimBy_eq] at hholds
  · intro htakes
    rw [TakesZone, Classical.not_imp] at htakes
    obtain ⟨⟨z, hz, u, hu⟩, hoffset⟩ := htakes
    obtain ⟨y, w, hyw, hw⟩ := exists_isLetter_of_zone (toList_mem_zoneNames hz)
    rw [← hu, hyw, ← List.append_assoc] at hT hoffset
    rw [exists_error_iff]
    rintro ⟨j, hj⟩
    obtain ⟨d, k, hholds, -⟩ := parsePosition_eq_ok_iff.1 hj
    rw [hzone, ← hu, hyw, ← List.append_assoc] at hholds
    exact not_holds_of_letter hw hT hoffset hholds

end Time

end CoverageAccess
