import Mathlib.Algebra.Group.Int.Defs
import Mathlib.Algebra.Group.Nat.Defs
import CoverageAccess.Number.Integer
import CoverageAccess.Proofs.Text.Trim
/-!
# Reading and writing integers

Reading digits is the positional value that core gives to them, so what `digits` writes is read back.
The characters of what the readers accept and the writers write are known: digits, and a sign.
-/

namespace CoverageAccess

namespace Number

theorem isDigit_iff {c : Char} : isDigit c = true ↔ '0' ≤ c ∧ c ≤ '9' := by
  unfold isDigit digit?
  split <;> simp_all

theorem digit?_of_isDigit {c : Char} (h : isDigit c = true) :
    digit? c = some (c.toNat - '0'.toNat) := by
  unfold digit?
  rw [if_pos (isDigit_iff.1 h)]

/-- Core's digits are the decimal digits. -/
theorem isDigit_of_charIsDigit {c : Char} (h : c.isDigit = true) : isDigit c = true := by
  rw [isDigit_iff]
  simp only [Char.isDigit, Bool.and_eq_true, decide_eq_true_eq] at h
  exact h

theorem digitsFrom?_eq_some {s : List Char} (h : ∀ c ∈ s, isDigit c = true) (n : Nat) :
    digitsFrom? n s = some (Nat.ofDigitChars 10 s n) := by
  induction s generalizing n with
  | nil => rfl
  | cons c s ih =>
      rw [digitsFrom?, digit?_of_isDigit (h c List.mem_cons_self), Nat.ofDigitChars_cons]
      exact ih (fun d hd => h d (List.mem_cons_of_mem _ hd)) _

theorem isDigit_of_mem_of_digitsFrom? {s : List Char} {n m : Nat}
    (h : digitsFrom? n s = some m) : ∀ c ∈ s, isDigit c = true := by
  induction s generalizing n with
  | nil => simp
  | cons c s ih =>
      rw [digitsFrom?] at h
      cases hc : digit? c with
      | none =>
          rw [hc] at h
          cases h
      | some k =>
          rw [hc] at h
          refine List.forall_mem_cons.2 ⟨?_, ih h⟩
          rw [isDigit, hc]
          rfl

theorem isDigit_of_mem_of_natural? {s : List Char} {n : Nat} (h : natural? s = some n) :
    ∀ c ∈ s, isDigit c = true := by
  cases s with
  | nil => cases h
  | cons c s => exact isDigit_of_mem_of_digitsFrom? h

theorem isDigit_of_mem_digits {n : Nat} {c : Char} (h : c ∈ digits n) : isDigit c = true :=
  isDigit_of_charIsDigit (Nat.isDigit_of_mem_toDigits (by decide) (by decide) h)

theorem digits_ne_nil (n : Nat) : digits n ≠ [] :=
  Nat.toDigits_ne_nil

theorem natural?_eq_some {s : List Char} (hs : s ≠ []) (h : ∀ c ∈ s, isDigit c = true) :
    natural? s = some (Nat.ofDigitChars 10 s 0) := by
  cases s with
  | nil => exact absurd rfl hs
  | cons c s => exact digitsFrom?_eq_some h 0

/-- The digits of a number are read as that number. -/
theorem natural?_digits (n : Nat) : natural? (digits n) = some n := by
  rw [natural?_eq_some (digits_ne_nil n) fun _ => isDigit_of_mem_digits, digits,
    Nat.ofDigitChars_ten_toDigits]

theorem dropPlus_of_isDigit {s : List Char} (h : ∀ c ∈ s, isDigit c = true) : dropPlus s = s := by
  unfold dropPlus
  split
  next s =>
    have := h '+' List.mem_cons_self
    exact absurd this (by decide)
  next => rfl

theorem splitSign_of_not_mem {s : List Char} (hminus : '-' ∉ s) (hplus : '+' ∉ s) :
    splitSign s = (false, s) := by
  unfold splitSign
  split
  next => exact absurd List.mem_cons_self hminus
  next =>
    unfold dropPlus
    split
    next => exact absurd List.mem_cons_self hplus
    next => rfl

theorem unsigned?_digits {bound n : Nat} (h : n ≤ bound) :
    unsigned? bound (digits n) = some n := by
  rw [unsigned?, dropPlus_of_isDigit fun _ => isDigit_of_mem_digits, natural?_digits]
  simpa using h

theorem isDigit_of_mem_padded {width n : Nat} {c : Char} (h : c ∈ padded width n) :
    isDigit c = true := by
  rcases List.mem_append.1 h with h | h
  · rw [List.eq_of_mem_replicate h]
    rfl
  · exact isDigit_of_mem_digits h

theorem padded_ne_nil (width n : Nat) : padded width n ≠ [] :=
  List.append_ne_nil_of_right_ne_nil _ (digits_ne_nil n)

/-- Leading zeros do not change the number. -/
theorem ofDigitChars_padded (width n : Nat) : Nat.ofDigitChars 10 (padded width n) 0 = n := by
  rw [padded, Nat.ofDigitChars_append, Nat.ofDigitChars_replicate_zero, Nat.mul_zero, digits,
    Nat.ofDigitChars_ten_toDigits]

theorem natural?_padded (width n : Nat) : natural? (padded width n) = some n := by
  rw [natural?_eq_some (padded_ne_nil width n) fun _ => isDigit_of_mem_padded,
    ofDigitChars_padded]

theorem unsigned?_padded {width bound n : Nat} (h : n ≤ bound) :
    unsigned? bound (padded width n) = some n := by
  rw [unsigned?, dropPlus_of_isDigit fun _ => isDigit_of_mem_padded, natural?_padded]
  simpa using h

/-- A number with no more digits than places fills them. -/
theorem length_padded {width n : Nat} (hwidth : 0 < width) (h : n < 10 ^ width) :
    (padded width n).length = width := by
  have hdigits : (digits n).length ≤ width :=
    (Nat.length_toDigits_le_iff (by decide) hwidth).2 h
  rw [padded, List.length_append, List.length_replicate]
  omega

theorem not_isBlank_of_isDigit {c : Char} (h : isDigit c = true) : Text.isBlank c = false := by
  obtain ⟨hlow, hhigh⟩ := isDigit_iff.1 h
  have hl : '!' ≤ c := Char.le_trans (by decide) hlow
  exact Text.not_isBlank_of_visible hl (Char.le_trans hhigh (by decide))

theorem trim_ofNatural (n : Nat) : Text.trim (ofNatural n) = ofNatural n := by
  apply Text.trim_of_forall_not_isBlank
  intro c hc
  rw [ofNatural, String.toList_ofList] at hc
  exact not_isBlank_of_isDigit (isDigit_of_mem_digits hc)

theorem mem_dropPlus_or {s : List Char} {c : Char} (h : c ∈ s) : c ∈ dropPlus s ∨ c = '+' := by
  unfold dropPlus
  split
  next => exact (List.mem_cons.1 h).symm
  next => exact .inl h

theorem natural?_eq_some_iff {s : List Char} {n : Nat} :
    natural? s = some n ↔
      s ≠ [] ∧ (∀ c ∈ s, isDigit c = true) ∧ n = Nat.ofDigitChars 10 s 0 := by
  constructor
  · intro h
    have hne : s ≠ [] := by
      rintro rfl
      cases h
    have hdigits := isDigit_of_mem_of_natural? h
    rw [natural?_eq_some hne hdigits] at h
    exact ⟨hne, hdigits, (Option.some.inj h).symm⟩
  · rintro ⟨hne, hdigits, rfl⟩
    exact natural?_eq_some hne hdigits

/-- The text is an integer: digits, with a sign before them or without one. -/
inductive Denotes : List Char → Int → Prop
  | plain {s : List Char} (hne : s ≠ []) (h : ∀ c ∈ s, isDigit c = true) :
    Denotes s (Nat.ofDigitChars 10 s 0)
  | plus {s : List Char} (hne : s ≠ []) (h : ∀ c ∈ s, isDigit c = true) :
    Denotes ('+' :: s) (Nat.ofDigitChars 10 s 0)
  | minus {s : List Char} (hne : s ≠ []) (h : ∀ c ∈ s, isDigit c = true) :
    Denotes ('-' :: s) (-(Nat.ofDigitChars 10 s 0 : Int))

theorem denotes_iff {s : List Char} {n : Int} :
    Denotes s n ↔ ∃ k, natural? (splitSign s).2 = some k ∧
      (if (splitSign s).1 then -(k : Int) else k) = n := by
  constructor
  · intro h
    cases h with
    | plain hne h =>
        have hsign : splitSign s = (false, s) := by
          apply splitSign_of_not_mem <;>
          · intro hc
            exact absurd (h _ hc) (by decide)
        rw [hsign]
        exact ⟨_, natural?_eq_some hne h, rfl⟩
    | plus hne h => exact ⟨_, natural?_eq_some hne h, rfl⟩
    | minus hne h => exact ⟨_, natural?_eq_some hne h, rfl⟩
  · rintro ⟨k, hk, rfl⟩
    revert hk
    unfold splitSign
    split
    next r =>
      intro hk
      obtain ⟨hne, hdigits, rfl⟩ := natural?_eq_some_iff.1 hk
      exact .minus hne hdigits
    next =>
      unfold dropPlus
      split
      next r _ =>
        intro hk
        obtain ⟨hne, hdigits, rfl⟩ := natural?_eq_some_iff.1 hk
        exact .plus hne hdigits
      next =>
        intro hk
        obtain ⟨hne, hdigits, rfl⟩ := natural?_eq_some_iff.1 hk
        exact .plain hne hdigits

/-- An integer of a number of bits is read as what its text denotes. -/
theorem signed?_eq_some_iff {bits : Nat} {s : List Char} {n : Int} :
    signed? bits s = some n ↔
      Denotes s n ∧ -2 ^ (bits - 1) ≤ n ∧ n < 2 ^ (bits - 1) := by
  have hpow : (Nat.pow 2 (bits - 1) : Int) = 2 ^ (bits - 1) := by
    exact_mod_cast rfl
  rw [denotes_iff, signed?]
  simp only [Option.filter_eq_some_iff, Option.map_eq_some_iff, Option.bind_eq_bind,
    Option.bind_eq_some_iff, Option.pure_def, Option.some.injEq, Bool.and_eq_true,
    decide_eq_true_eq, hpow, exists_exists_and_eq_and]

theorem mem_of_signed? {bits : Nat} {s : List Char} {n : Int} (h : signed? bits s = some n)
    {c : Char} (hc : c ∈ s) : isDigit c = true ∨ c = '+' ∨ c = '-' := by
  cases (signed?_eq_some_iff.1 h).1 with
  | plain hne hdigits => exact .inl (hdigits c hc)
  | plus hne hdigits => exact (List.mem_cons.1 hc).symm.imp (hdigits c) .inl
  | minus hne hdigits => exact (List.mem_cons.1 hc).symm.imp (hdigits c) .inr

theorem mem_ofInteger {n : Int} {c : Char} (h : c ∈ (ofInteger n).toList) :
    isDigit c = true ∨ c = '-' := by
  cases n with
  | ofNat n =>
      simp only [ofInteger, ofNatural, String.toList_ofList] at h
      exact .inl (isDigit_of_mem_digits h)
  | negSucc n =>
      simp only [ofInteger, ofNatural, String.toList_append, String.toList_ofList,
        List.mem_append] at h
      rcases h with h | h
      · exact .inr (by simpa using h)
      · exact .inl (isDigit_of_mem_digits h)

end Number

end CoverageAccess
