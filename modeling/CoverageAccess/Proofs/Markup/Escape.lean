import CoverageAccess.Markup.Escape
import CoverageAccess.Proofs.Text.Trim
/-!
# Escaped texts

An escaped text holds no angle bracket and no quote, so it neither ends a value nor opens a tag.
Escaping keeps the blanks of markup and makes none, so it does not matter whether a text is trimmed
before or after it is escaped (`trimBy_escape`).
-/

namespace CoverageAccess

namespace Markup

open Text

/-- The characters that end a run of text, a tag or a value. -/
def isDelimiter (c : Char) : Bool :=
  c == '<' || c == '>' || c == '"' || c == '\''

theorem escapeChar_of_ne {c : Char} (hd : isDelimiter c = false) (ha : c ≠ '&') :
    escapeChar c = [c] := by
  simp only [isDelimiter, Bool.or_eq_false_iff, beq_eq_false_iff_ne] at hd
  obtain ⟨⟨⟨hlt, hgt⟩, hquot⟩, hapos⟩ := hd
  unfold escapeChar
  split <;> simp_all

theorem escapeChar_eq_reference {c : Char} (h : isDelimiter c = true ∨ c = '&') :
    ∃ name, escapeChar c = '&' :: name ++ [';'] ∧ ∀ d ∈ name, d.isAlpha = true := by
  simp only [isDelimiter, Bool.or_eq_true, beq_iff_eq] at h
  rcases h with (((rfl | rfl) | rfl) | rfl) | rfl
  · exact ⟨"lt".toList, rfl, by decide⟩
  · exact ⟨"gt".toList, rfl, by decide⟩
  · exact ⟨"quot".toList, rfl, by decide⟩
  · exact ⟨"apos".toList, rfl, by decide⟩
  · exact ⟨"amp".toList, rfl, by decide⟩

theorem not_isDelimiter_of_isAlpha {c : Char} (h : c.isAlpha = true) : isDelimiter c = false := by
  cases hc : isDelimiter c with
  | false => rfl
  | true =>
      simp only [isDelimiter, Bool.or_eq_true, beq_iff_eq] at hc
      rcases hc with ((rfl | rfl) | rfl) | rfl <;> exact absurd h (by decide)

theorem not_isDelimiter_of_mem_escape {s : List Char} {c : Char} (h : c ∈ escape s) :
    isDelimiter c = false := by
  obtain ⟨d, -, hc⟩ := List.mem_flatMap.1 h
  by_cases hr : isDelimiter d = true ∨ d = '&'
  · obtain ⟨name, hname, halpha⟩ := escapeChar_eq_reference hr
    rw [hname, List.cons_append, List.mem_cons, List.mem_append, List.mem_singleton] at hc
    rcases hc with rfl | hc | rfl
    · decide
    · exact not_isDelimiter_of_isAlpha (halpha c hc)
    · decide
  · obtain ⟨hd, ha⟩ := not_or.1 hr
    rw [escapeChar_of_ne (by simpa using hd) ha] at hc
    rw [List.mem_singleton.1 hc]
    simpa using hd

theorem not_isLineBlank_of_isDelimiter {c : Char} (h : isDelimiter c = true) :
    isLineBlank c = false := by
  simp only [isDelimiter, Bool.or_eq_true, beq_iff_eq] at h
  rcases h with ((rfl | rfl) | rfl) | rfl <;> decide

theorem escape_of_forall_isLineBlank {s : List Char} (h : ∀ c ∈ s, isLineBlank c = true) :
    escape s = s := by
  induction s with
  | nil => rfl
  | cons c s ih =>
      have hc : isLineBlank c = true := h c List.mem_cons_self
      have hd : isDelimiter c = false := by
        cases hd : isDelimiter c with
        | false => rfl
        | true => rw [not_isLineBlank_of_isDelimiter hd] at hc; cases hc
      have ha : c ≠ '&' := by
        rintro rfl
        exact absurd hc (by decide)
      rw [escape_cons, escapeChar_of_ne hd ha, ih fun d hd => h d (List.mem_cons_of_mem _ hd)]
      rfl

/-- What is written for a character begins and ends with a blank only if the character is one. -/
theorem bare_escapeChar {c : Char} (h : isLineBlank c = false) :
    escapeChar c ≠ [] ∧ Bare isLineBlank (escapeChar c) := by
  by_cases hr : isDelimiter c = true ∨ c = '&'
  · obtain ⟨name, hname, -⟩ := escapeChar_eq_reference hr
    rw [hname]
    refine ⟨List.cons_ne_nil _ _, ?_, ?_⟩
    · intro d hd
      cases hd
      decide
    · intro d hd
      rw [List.getLast?_concat] at hd
      cases hd
      decide
  · obtain ⟨hd, ha⟩ := not_or.1 hr
    rw [escapeChar_of_ne (by simpa using hd) ha]
    refine ⟨List.cons_ne_nil _ _, ?_, ?_⟩ <;>
    · intro d hd
      cases hd
      exact h

theorem bare_escape {s : List Char} (h : Bare isLineBlank s) : Bare isLineBlank (escape s) := by
  constructor
  · intro d hd
    cases s with
    | nil => cases hd
    | cons c s =>
        obtain ⟨hne, hbare⟩ := bare_escapeChar (h.1 c rfl)
        rw [escape_cons, List.head?_append_of_ne_nil _ hne] at hd
        exact hbare.1 d hd
  · intro d hd
    rcases List.eq_nil_or_concat s with rfl | ⟨s, c, rfl⟩
    · cases hd
    · obtain ⟨hne, hbare⟩ := bare_escapeChar (h.2 c (by simp))
      have hend : escape (s.concat c) = escape s ++ escapeChar c := by
        rw [List.concat_eq_append, escape_append, escape_cons, escape_nil, List.append_nil]
      rw [hend, List.getLast?_append_of_ne_nil _ hne] at hd
      exact hbare.2 d hd

/-- Trimming and escaping may be done in either order. -/
theorem trimBy_escape (s : List Char) :
    trimBy isLineBlank (escape s) = escape (trimBy isLineBlank s) := by
  obtain ⟨a, b, hs, ha, hb⟩ := eq_append_trimBy isLineBlank s
  have hescape : escape s = a ++ escape (trimBy isLineBlank s) ++ b := by
    conv_lhs => rw [hs]
    rw [escape_append, escape_append, escape_of_forall_isLineBlank ha,
      escape_of_forall_isLineBlank hb]
  rw [hescape, trimBy_append_append ha hb]
  exact (bare_escape (bare_trimBy _ s)).trimBy_eq

end Markup

end CoverageAccess
