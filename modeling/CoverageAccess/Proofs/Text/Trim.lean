import CoverageAccess.Text.Blank
import Mathlib.Data.List.DropRight
/-!
# Trimmed texts

A list is `Bare` of a class of characters if neither of its ends is in the class, which is the case
exactly if trimming leaves it alone (`trimBy_eq_self_iff`). Trimming makes a list bare, and what it
takes away at the ends consists of characters of the class only (`eq_append_trimBy`); so trimming by
a smaller class first makes no difference (`trimBy_trimBy_of_imp`).
-/

namespace CoverageAccess

namespace Text

variable {p q : Char → Bool} {s : List Char}

/-- What is said of all characters of a text is decided on the text, and not on all characters there
are. -/
instance decidableForallMem (s : List Char) (P : Char → Prop) [DecidablePred P] :
    Decidable (∀ c ∈ s, P c) :=
  List.decidableBAll P s

instance decidableExistsMem (s : List Char) (P : Char → Prop) [DecidablePred P] :
    Decidable (∃ c ∈ s, P c) :=
  List.decidableBEx P s

/-- Neither end of the list is a character of class `p`. -/
def Bare (p : Char → Bool) (s : List Char) : Prop :=
  (∀ c, s.head? = some c → p c = false) ∧ ∀ c, s.getLast? = some c → p c = false

theorem trimEnd_eq_rdropWhile (p : Char → Bool) (s : List Char) :
    trimEnd p s = s.rdropWhile p := rfl

theorem not_isBlank_of_visible {c : Char} (hlow : '!' ≤ c) (hhigh : c ≤ '~') :
    isBlank c = false := by
  have hl : 33 ≤ c.toNat := UInt32.le_iff_toNat_le.1 hlow
  have hh : c.toNat ≤ 126 := UInt32.le_iff_toNat_le.1 hhigh
  simp only [isBlank, blankRanges, List.any_cons, List.any_nil, Bool.or_false, Bool.or_eq_false_iff,
    Bool.and_eq_false_iff, decide_eq_false_iff_not]
  omega

theorem eq_append_trimStart (p : Char → Bool) (s : List Char) :
    ∃ a, s = a ++ trimStart p s ∧ ∀ c ∈ a, p c = true :=
  ⟨s.takeWhile p, List.takeWhile_append_dropWhile.symm, fun _ hc => List.mem_takeWhile_imp hc⟩

theorem eq_trimEnd_append (p : Char → Bool) (s : List Char) :
    ∃ b, s = trimEnd p s ++ b ∧ ∀ c ∈ b, p c = true := by
  obtain ⟨a, ha, hp⟩ := eq_append_trimStart p s.reverse
  refine ⟨a.reverse, ?_, fun c hc => hp c (List.mem_reverse.1 hc)⟩
  have hs := congrArg List.reverse ha
  rwa [List.reverse_reverse, List.reverse_append] at hs

/-- What trimming takes away at the ends consists of characters of the class. -/
theorem eq_append_trimBy (p : Char → Bool) (s : List Char) :
    ∃ a b, s = a ++ trimBy p s ++ b ∧ (∀ c ∈ a, p c = true) ∧ ∀ c ∈ b, p c = true := by
  obtain ⟨a, ha, hpa⟩ := eq_append_trimStart p s
  obtain ⟨b, hb, hpb⟩ := eq_trimEnd_append p (trimStart p s)
  refine ⟨a, b, ?_, hpa, hpb⟩
  rw [trimBy, List.append_assoc, ← hb]
  exact ha

theorem mem_of_mem_trimBy {c : Char} (hc : c ∈ trimBy p s) : c ∈ s := by
  obtain ⟨a, b, hs, -, -⟩ := eq_append_trimBy p s
  rw [hs]
  exact List.mem_append_left _ (List.mem_append_right _ hc)

/-- A character that is not of the class stays. -/
theorem mem_trimBy {c : Char} (hc : c ∈ s) (hp : p c = false) : c ∈ trimBy p s := by
  obtain ⟨a, b, hs, ha, hb⟩ := eq_append_trimBy p s
  rw [hs, List.mem_append, List.mem_append] at hc
  rcases hc with (hc | hc) | hc
  · rw [ha c hc] at hp
    cases hp
  · exact hc
  · rw [hb c hc] at hp
    cases hp

theorem length_trimBy_le (p : Char → Bool) (s : List Char) :
    (trimBy p s).length ≤ s.length := by
  obtain ⟨a, b, hs, -, -⟩ := eq_append_trimBy p s
  have hlength := congrArg List.length hs
  rw [List.length_append, List.length_append] at hlength
  omega

theorem bare_of_forall (h : ∀ c ∈ s, p c = false) : Bare p s :=
  ⟨fun c hc => h c (List.mem_of_head? hc), fun c hc => h c (List.mem_of_getLast? hc)⟩

theorem Bare.trimEnd_eq (h : Bare p s) : trimEnd p s = s := by
  rw [trimEnd_eq_rdropWhile, List.rdropWhile_eq_self_iff]
  intro hne
  have := h.2 (s.getLast hne) (List.getLast?_eq_some_getLast hne)
  simp [this]

theorem Bare.trimBy_eq (h : Bare p s) : trimBy p s = s := by
  have hstart : trimStart p s = s := by
    refine List.dropWhile_eq_self_iff.2 fun hl => ?_
    have := h.1 s[0] (by rw [List.head?_eq_getElem?, List.getElem?_eq_getElem hl])
    simp [this]
  rw [trimBy, hstart, h.trimEnd_eq]

theorem Bare.append_cons {t : List Char} {c : Char} (hs : Bare p s) (ht : Bare p t)
    (hc : p c = false) : Bare p (s ++ c :: t) := by
  constructor
  · intro d hd
    cases s with
    | nil =>
        cases hd
        exact hc
    | cons a s => exact hs.1 d hd
  · intro d hd
    rw [List.getLast?_append_of_ne_nil _ (List.cons_ne_nil c t)] at hd
    cases t with
    | nil =>
        cases hd
        exact hc
    | cons a t => exact ht.2 d hd

theorem getLast?_trimEnd {c : Char} (h : (trimEnd p s).getLast? = some c) : p c = false := by
  have hhead := List.head?_dropWhile_not p s.reverse
  rw [trimEnd, List.getLast?_reverse] at h
  rw [h] at hhead
  simpa using hhead

theorem bare_trimBy (p : Char → Bool) (s : List Char) : Bare p (trimBy p s) := by
  constructor
  · intro c hc
    obtain ⟨b, hb, -⟩ := eq_trimEnd_append p (trimStart p s)
    have hhead := List.head?_dropWhile_not p s
    have hc' : (trimStart p s).head? = some c := by
      rw [hb, List.head?_append]
      change (trimEnd p (trimStart p s)).head? = some c at hc
      rw [hc]
      rfl
    change (s.dropWhile p).head? = some c at hc'
    rw [hc'] at hhead
    simpa using hhead
  · intro c hc
    exact getLast?_trimEnd hc

/-- Trimming leaves exactly the bare lists alone. -/
theorem trimBy_eq_self_iff : trimBy p s = s ↔ Bare p s := by
  constructor
  · intro h
    rw [← h]
    exact bare_trimBy p s
  · exact Bare.trimBy_eq

@[simp] theorem trimBy_trimBy (p : Char → Bool) (s : List Char) :
    trimBy p (trimBy p s) = trimBy p s :=
  (bare_trimBy p s).trimBy_eq

theorem trimEnd_append {b : List Char} (hb : ∀ c ∈ b, p c = true) :
    trimEnd p (s ++ b) = trimEnd p s := by
  rw [trimEnd, List.reverse_append, List.dropWhile_append_of_pos]
  · rfl
  · intro c hc
    exact hb c (List.mem_reverse.1 hc)

theorem trimBy_append_append {a b : List Char} (ha : ∀ c ∈ a, p c = true)
    (hb : ∀ c ∈ b, p c = true) : trimBy p (a ++ s ++ b) = trimBy p s := by
  rw [trimBy, trimStart, List.append_assoc, List.dropWhile_append_of_pos ha, List.dropWhile_append]
  split
  next h =>
    have hnil : s.dropWhile p = [] := List.isEmpty_iff.1 h
    rw [List.dropWhile_eq_nil_iff.2 hb, trimBy, trimStart, hnil]
  next => exact trimEnd_append hb

/-- What is taken away at the start ends before the first character of another class. -/
theorem trimStart_append_cons {c : Char} (hc : p c = false) (s t : List Char) :
    trimStart p (s ++ c :: t) = trimStart p s ++ c :: t := by
  rw [trimStart, List.dropWhile_append, List.dropWhile_cons_of_neg (by simp [hc])]
  split
  next h => rw [trimStart, List.isEmpty_iff.1 h, List.nil_append]
  next => rfl

/-- Trimming by a smaller class first makes no difference. -/
theorem trimBy_trimBy_of_imp (h : ∀ c, q c = true → p c = true) (s : List Char) :
    trimBy p (trimBy q s) = trimBy p s := by
  obtain ⟨a, b, hs, ha, hb⟩ := eq_append_trimBy q s
  conv_rhs => rw [hs]
  exact (trimBy_append_append (fun c hc => h c (ha c hc)) fun c hc => h c (hb c hc)).symm

@[simp] theorem trim_trim (s : String) : trim (trim s) = trim s := by
  rw [trim, toList_trim, trimBy_trimBy]
  rfl

theorem trim_ofList_trimStart (s : List Char) :
    trim (.ofList (trimStart isBlank s)) = trim (.ofList s) := by
  obtain ⟨a, hs, ha⟩ := eq_append_trimStart isBlank s
  have htrim := trimBy_append_append (b := []) (s := trimStart isBlank s) ha (by simp)
  rw [List.append_nil, ← hs] at htrim
  rw [← String.toList_inj, toList_trim, toList_trim, String.toList_ofList, String.toList_ofList,
    htrim]

/-- A text is its own trim exactly if it is bare of blanks. -/
theorem trim_eq_self_iff {s : String} : trim s = s ↔ Bare isBlank s.toList := by
  rw [← trimBy_eq_self_iff, ← String.toList_inj, toList_trim]

theorem trim_of_forall_not_isBlank {s : String} (h : ∀ c ∈ s.toList, isBlank c = false) :
    trim s = s :=
  trim_eq_self_iff.2 (bare_of_forall h)

end Text

end CoverageAccess
