import CoverageAccess.Proofs.Number.Integer
import CoverageAccess.Proofs.Number.Shortest
/-!
# Numbers written without exponent

The plain text of a number holds no blanks, so that it is its own trim, and a positive number is read
back from it (`real?_plain`): the text has the value of the shortest decimal, wherever its point
stands, and what rounds to the number is read as the number.
-/

namespace CoverageAccess

namespace Number

/-- Digits with a point in or beside them hold nothing else. -/
theorem mem_positional {s : List Char} {point : Int} {c : Char} (hs : ∀ c ∈ s, isDigit c = true)
    (h : c ∈ positional s point) : isDigit c = true ∨ c = '.' := by
  unfold positional at h
  split at h
  · have hzero : ∀ c ∈ "0.".toList, isDigit c = true ∨ c = '.' := by decide
    rcases List.mem_append.1 h with h | h
    · rcases List.mem_append.1 h with h | h
      · exact hzero c h
      · rw [List.eq_of_mem_replicate h]
        exact .inl rfl
    · exact .inl (hs c h)
  · split at h
    · rcases List.mem_append.1 h with h | h
      · exact .inl (hs c h)
      · rw [List.eq_of_mem_replicate h]
        exact .inl rfl
    · rcases List.mem_append.1 h with h | h
      · exact .inl (hs c (List.mem_of_mem_take h))
      · rcases List.mem_cons.1 h with rfl | h
        · exact .inr rfl
        · exact .inl (hs c (List.mem_of_mem_drop h))

theorem spanDigits_append {s t : List Char} (hs : ∀ c ∈ s, isDigit c = true)
    (ht : ∀ c, t.head? = some c → isDigit c = false) : spanDigits (s ++ t) = (s, t) := by
  rw [spanDigits, List.takeWhile_append_of_pos hs, List.dropWhile_append_of_pos hs]
  cases t with
  | nil => rw [List.takeWhile_nil, List.append_nil, List.dropWhile_nil]
  | cons c t =>
      have hc := ht c rfl
      rw [List.takeWhile_cons_of_neg (by simp [hc]), List.append_nil,
        List.dropWhile_cons_of_neg (by simp [hc])]

theorem spanDigits_of_forall {s : List Char} (hs : ∀ c ∈ s, isDigit c = true) :
    spanDigits s = (s, []) := by
  have h := spanDigits_append (t := []) hs (by simp)
  rwa [List.append_nil] at h

theorem magnitude?_digits {s : List Char} (hne : s ≠ []) (hs : ∀ c ∈ s, isDigit c = true) :
    magnitude? s = some (ofScaled (Nat.ofDigitChars 10 s 0) 0) := by
  unfold magnitude?
  rw [spanDigits_of_forall hs]
  dsimp only
  rw [List.append_nil, natural?_eq_some hne hs]
  rfl

theorem magnitude?_point {s t : List Char} (hne : s ≠ []) (hs : ∀ c ∈ s, isDigit c = true)
    (ht : ∀ c ∈ t, isDigit c = true) :
    magnitude? (s ++ '.' :: t) = some (ofScaled (Nat.ofDigitChars 10 (s ++ t) 0) (-t.length)) := by
  have hpoint : ∀ c, ('.' :: t).head? = some c → isDigit c = false := by
    rintro c ⟨⟩
    decide
  have hall : ∀ c ∈ s ++ t, isDigit c = true := List.forall_mem_append.2 ⟨hs, ht⟩
  unfold magnitude?
  rw [spanDigits_append hs hpoint]
  change ((natural? (s ++ (spanDigits t).1)).bind fun n => (exponent? (spanDigits t).2).bind fun k =>
    some (ofScaled n (k - (spanDigits t).1.length))) = _
  rw [spanDigits_of_forall ht, natural?_eq_some (List.append_ne_nil_of_left_ne_nil hne t) hall]
  change some (ofScaled _ (0 - (t.length : Int))) = _
  rw [zero_sub]

theorem ofDigitChars_digits (n : Nat) : Nat.ofDigitChars 10 (digits n) 0 = n :=
  Nat.ofDigitChars_ten_toDigits

theorem isDigit_of_mem_zeros {j : Nat} {c : Char} (h : c ∈ List.replicate j '0') :
    isDigit c = true := by
  rw [List.eq_of_mem_replicate h]
  rfl

/-- The point before the digits. -/
theorem magnitude?_before (n j : Nat) :
    magnitude? ("0.".toList ++ List.replicate j '0' ++ digits n) =
      some (ofScaled n (-(j + (digits n).length : ℕ))) := by
  have htext : "0.".toList ++ List.replicate j '0' ++ digits n =
      ['0'] ++ '.' :: (List.replicate j '0' ++ digits n) := rfl
  have hvalue : Nat.ofDigitChars 10 (['0'] ++ (List.replicate j '0' ++ digits n)) 0 = n := by
    rw [Nat.ofDigitChars_append, Nat.ofDigitChars_append]
    change Nat.ofDigitChars 10 _ (Nat.ofDigitChars 10 (List.replicate j '0') 0) = n
    rw [Nat.ofDigitChars_replicate_zero, mul_zero, ofDigitChars_digits]
  have hplaces : ∀ c ∈ List.replicate j '0' ++ digits n, isDigit c = true :=
    List.forall_mem_append.2 ⟨fun _ => isDigit_of_mem_zeros, fun _ => isDigit_of_mem_digits⟩
  rw [htext, magnitude?_point (by simp) (by decide) hplaces, hvalue, List.length_append,
    List.length_replicate]

/-- The point among the digits. -/
theorem magnitude?_among {n j : Nat} (hj : j ≠ 0) :
    magnitude? ((digits n).take j ++ '.' :: (digits n).drop j) =
      some (ofScaled n (-((digits n).length - j : ℕ))) := by
  have hne : (digits n).take j ≠ [] := by
    rw [Ne, List.take_eq_nil_iff]
    rintro (hnone | hnil)
    · exact hj hnone
    · exact digits_ne_nil n hnil
  rw [magnitude?_point hne (fun c hc => isDigit_of_mem_digits (List.mem_of_mem_take hc))
    (fun c hc => isDigit_of_mem_digits (List.mem_of_mem_drop hc)), List.take_append_drop,
    ofDigitChars_digits, List.length_drop]

/-- No point, but zeros after the digits. -/
theorem magnitude?_after (n j : Nat) :
    magnitude? (digits n ++ List.replicate j '0') = some (ofScaled (10 ^ j * n) 0) := by
  have hall : ∀ c ∈ digits n ++ List.replicate j '0', isDigit c = true :=
    List.forall_mem_append.2 ⟨fun _ => isDigit_of_mem_digits, fun _ => isDigit_of_mem_zeros⟩
  rw [magnitude?_digits (List.append_ne_nil_of_left_ne_nil (digits_ne_nil n) _) hall,
    Nat.ofDigitChars_append, ofDigitChars_digits, Nat.ofDigitChars_replicate_zero]

/-- Wherever the point stands, the text has the value of the decimal. -/
theorem magnitude?_positional (d : Decimal) :
    ∃ d' : Decimal, d'.value = d.value ∧
      magnitude? (positional (digits d.digits) ((digits d.digits).length + d.exponent)) =
        some (ofScaled d'.digits d'.exponent) := by
  obtain ⟨n, k⟩ := d
  dsimp only
  unfold positional
  split
  next hpoint =>
    refine ⟨⟨n, k⟩, rfl, ?_⟩
    rw [magnitude?_before]
    congr 2
    push_cast
    omega
  next hpoint =>
    split
    next hlong =>
      obtain ⟨j, rfl⟩ := Int.eq_ofNat_of_zero_le (show 0 ≤ k by omega)
      have hcount : ((digits n).length + (j : Int)).toNat - (digits n).length = j := by omega
      refine ⟨⟨10 ^ j * n, 0⟩, ?_, ?_⟩
      · change ((10 ^ j * n : ℕ) : ℚ) * 10 ^ (0 : Int) = n * 10 ^ (j : Int)
        push_cast
        rw [zpow_natCast]
        ring
      · rw [hcount, magnitude?_after]
    next hshort =>
      refine ⟨⟨n, k⟩, rfl, ?_⟩
      rw [magnitude?_among (by omega)]
      congr 2
      dsimp only
      omega

theorem splitSign_of_forall {s : List Char} (h : ∀ c ∈ s, isDigit c = true ∨ c = '.') :
    splitSign s = (false, s) :=
  splitSign_of_not_mem (fun hc => absurd (h _ hc) (by decide)) fun hc => absurd (h _ hc) (by decide)

/-- The plain text of a positive number is the one of its shortest decimal. -/
theorem toList_plain {x : Float} (hfinite : x.isFinite = true) (hpos : 0 < x) :
    (plain x).toList = positional (digits (shortest (parts x).1 (parts x).2).digits)
      ((digits (shortest (parts x).1 (parts x).2).digits).length +
        (shortest (parts x).1 (parts x).2).exponent) := by
  obtain ⟨hsign, hc, hq, hx⟩ := exists_canonical hfinite hpos
  have hunpack : x.toModel.unpack = .finite .positive _ _ hc.pos :=
    (congrArg (fun y : Float => y.toModel.unpack) hx).trans (unpack_ofCanonical hc hq)
  have hnan : x.isNaN = false := congrArg Float.Model.UnpackedFloat.isNaN hunpack
  have hinf : x.isInf = false := congrArg Float.Model.UnpackedFloat.isInf hunpack
  unfold plain written
  rw [hnan, hinf, hsign]
  dsimp only
  rw [if_neg Bool.false_ne_true, if_neg Bool.false_ne_true, if_neg hc.pos.ne',
    if_neg Bool.false_ne_true, String.empty_append, String.toList_ofList]

/-- A positive number is read back from its plain text. -/
theorem real?_plain {x : Float} (hfinite : x.isFinite = true) (hpos : 0 < x) :
    real? (plain x) = some x := by
  obtain ⟨-, hc, hq, hx⟩ := exists_canonical hfinite hpos
  have hround := roundsTo_shortest hc hq
  obtain ⟨d, hvalue, hread⟩ := magnitude?_positional (shortest (parts x).1 (parts x).2)
  rw [← hvalue] at hround
  have hd : d.digits ≠ 0 := by
    intro hzero
    have hlow := hround.two_zpow_lt hc
    rw [Decimal.value, hzero, Nat.cast_zero, zero_mul] at hlow
    exact absurd hlow (two_zpow_pos _).le.not_gt
  rw [real?, realOf?, toList_plain hfinite hpos,
    splitSign_of_forall fun _ => mem_positional fun _ => isDigit_of_mem_digits]
  dsimp only
  rw [hread, ofScaled_eq hc hq hd hround, ← hx]
  rfl

theorem not_isBlank_of_mem_plain {x : Float} {c : Char} (hc : c ∈ (plain x).toList) :
    Text.isBlank c = false := by
  have hsign : ∀ c ∈ (if isNegative x then "-" else "").toList, Text.isBlank c = false := by
    split <;> decide
  have hword (w : String) (hw : ∀ c ∈ w.toList, Text.isBlank c = false)
      (hc : c ∈ ((if isNegative x then "-" else "") ++ w).toList) : Text.isBlank c = false := by
    rw [String.toList_append] at hc
    rcases List.mem_append.1 hc with hc | hc
    · exact hsign c hc
    · exact hw c hc
  unfold plain written at hc
  split at hc
  · have hnan : ∀ c ∈ "NaN".toList, Text.isBlank c = false := by decide
    exact hnan c hc
  · dsimp only at hc
    split at hc
    · exact hword _ (by decide) hc
    · split at hc
      · exact hword _ (by decide) hc
      · refine hword _ (fun d hd => ?_) hc
        rw [String.toList_ofList] at hd
        rcases mem_positional (fun _ => isDigit_of_mem_digits) hd with hd | rfl
        · exact not_isBlank_of_isDigit hd
        · decide

theorem trim_plain (x : Float) : Text.trim (plain x) = plain x :=
  Text.trim_of_forall_not_isBlank fun _ => not_isBlank_of_mem_plain

end Number

end CoverageAccess
