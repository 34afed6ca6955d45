import CoverageAccess.Proofs.Number.Integer
import CoverageAccess.Text.Split
import Mathlib.Data.List.Basic
/-!
# Splitting at outer commas

An expression nests: commas stand between its clauses, between the arguments of a call, and inside
quotations. `Nesting` says how deep a reader is, and `pieces` cuts a text at the commas that are in no
quotation, bracket or parenthesis.

The run of a reader over a text is `run`; it stops at whatever an outer text must not hold. A text is
`Closed` if the run over it comes back to where it started. Closed texts with commas between them are
cut into these texts again (`pieces_join`), and a call of closed texts is closed.
-/

namespace CoverageAccess

/-- Where a reader of an expression stands: inside a quotation or not, and how many brackets and
parentheses are open. -/
structure Nesting where
  quoted : Bool
  depth : Nat
  deriving DecidableEq, Repr

namespace Nesting

/-- Outside of everything. -/
def outer : Nesting := ⟨false, 0⟩

/-- The place after one more character. -/
def after (n : Nesting) (c : Char) : Nesting :=
  if c = '"' then ⟨!n.quoted, n.depth⟩
  else if n.quoted then n
  else if c = '(' ∨ c = '[' then ⟨false, n.depth + 1⟩
  else if c = ')' ∨ c = ']' then ⟨false, n.depth - 1⟩
  else n

/-- The texts between the outer commas, for a reader who stands at `n`. -/
def pieces (n : Nesting) : List Char → List (List Char)
  | [] => [[]]
  | c :: s =>
    if n = outer ∧ c = ',' then [] :: pieces n s
    else
      match pieces (n.after c) s with
      | [] => [[c]]
      | w :: ws => (c :: w) :: ws

/-- A character that stands for itself: no comma, no quote, and nothing that nests. -/
def isPlain (c : Char) : Bool :=
  c != ',' && c != '"' && c != '(' && c != ')' && c != '[' && c != ']'

/-- A name that can stand in an expression as it is. -/
structure IsPlainName (name : String) : Prop where
  ne_empty : name ≠ ""
  plain : ∀ c ∈ name.toList, isPlain c = true

/-- The place after a text, unless the text holds an outer comma or closes what it did not open. -/
def run (n : Nesting) : List Char → Option Nesting
  | [] => some n
  | c :: s =>
    if n = outer ∧ (c = ',' ∨ c = ')' ∨ c = ']') then none else run (n.after c) s

/-- A text without outer commas that closes exactly what it opens. -/
def Closed (s : List Char) : Prop :=
  run outer s = some outer

instance (name : String) : Decidable (IsPlainName name) :=
  decidable_of_iff (name ≠ "" ∧ ∀ c ∈ name.toList, isPlain c = true)
    ⟨fun h => ⟨h.1, h.2⟩, fun h => ⟨h.ne_empty, h.plain⟩⟩

/-- A bracket around plain characters. -/
def IsBracket (text : String) : Prop :=
  ∃ s, text.toList = '[' :: s ++ [']'] ∧ ∀ c ∈ s, isPlain c = true

/-- A quotation without a quote inside. -/
def IsQuotation (text : String) : Prop :=
  ∃ s, text.toList = '"' :: s ++ ['"'] ∧ '"' ∉ s

theorem isPlain_of_isDigit {c : Char} (h : Number.isDigit c = true) : isPlain c = true := by
  obtain ⟨hlow, hhigh⟩ := Number.isDigit_iff.1 h
  simp only [isPlain, Bool.and_eq_true, bne_iff_ne]
  refine ⟨⟨⟨⟨⟨?_, ?_⟩, ?_⟩, ?_⟩, ?_⟩, ?_⟩ <;> rintro rfl <;> revert hlow hhigh <;> decide

theorem IsPlainName.quote {name : String} (h : IsPlainName name) : '"' ∉ name.toList := by
  intro hq
  exact absurd (h.plain _ hq) (by decide)

theorem run_append (n : Nesting) (s t : List Char) :
    run n (s ++ t) = (run n s).bind fun m => run m t := by
  induction s generalizing n with
  | nil => rfl
  | cons c s ih =>
      rw [List.cons_append, run, run]
      split
      · rfl
      · exact ih (n.after c)

/-- Inside one more parenthesis a run takes the same course, one level deeper. -/
theorem run_deeper {q q' : Bool} {d d' : Nat} {s : List Char}
    (h : run ⟨q, d⟩ s = some ⟨q', d'⟩) : run ⟨q, d + 1⟩ s = some ⟨q', d' + 1⟩ := by
  induction s generalizing q d with
  | nil =>
      cases h
      rfl
  | cons c s ih =>
      rw [run] at h ⊢
      split at h
      next => cases h
      next hc =>
        have hafter : (⟨q, d + 1⟩ : Nesting).after c =
            ⟨((⟨q, d⟩ : Nesting).after c).quoted, ((⟨q, d⟩ : Nesting).after c).depth + 1⟩ := by
          unfold after
          grind [outer]
        rw [if_neg (by simp [outer]), hafter]
        exact ih h

theorem Closed.run_one {s : List Char} (h : Closed s) : run ⟨false, 1⟩ s = some ⟨false, 1⟩ :=
  run_deeper h

theorem Closed.append {s t : List Char} (hs : Closed s) (ht : Closed t) : Closed (s ++ t) := by
  rw [Closed, run_append, hs]
  exact ht

theorem run_of_forall_isPlain {s : List Char} (h : ∀ c ∈ s, isPlain c = true) (d : Nat) :
    run ⟨false, d⟩ s = some ⟨false, d⟩ := by
  induction s with
  | nil => rfl
  | cons c s ih =>
      have hc : isPlain c = true := h c List.mem_cons_self
      simp only [isPlain, Bool.and_eq_true, bne_iff_ne] at hc
      have hafter : (⟨false, d⟩ : Nesting).after c = ⟨false, d⟩ := by
        simp [after, hc]
      rw [run, if_neg (by simp [hc]), hafter]
      exact ih fun d hd => h d (List.mem_cons_of_mem _ hd)

theorem closed_of_forall_isPlain {s : List Char} (h : ∀ c ∈ s, isPlain c = true) : Closed s :=
  run_of_forall_isPlain h 0

theorem run_quoted {s : List Char} (h : '"' ∉ s) (d : Nat) :
    run ⟨true, d⟩ s = some ⟨true, d⟩ := by
  induction s with
  | nil => rfl
  | cons c s ih =>
      have hc : c ≠ '"' := fun e => h (e ▸ List.mem_cons_self)
      have hafter : (⟨true, d⟩ : Nesting).after c = ⟨true, d⟩ := by
        simp [after, hc]
      rw [run, if_neg (by simp [outer]), hafter]
      exact ih fun hs => h (List.mem_cons_of_mem _ hs)

theorem closed_quotation {s : List Char} (h : '"' ∉ s) : Closed ('"' :: s ++ ['"']) := by
  have hquote : run outer ['"'] = some ⟨true, 0⟩ := by decide
  have hend : run ⟨true, 0⟩ ['"'] = some outer := by decide
  change run outer (['"'] ++ s ++ ['"']) = some outer
  rw [run_append, run_append, hquote, Option.bind_some, run_quoted h, Option.bind_some, hend]

theorem closed_bracket {s : List Char} (h : ∀ c ∈ s, isPlain c = true) :
    Closed ('[' :: s ++ [']']) := by
  have hopen : run outer ['['] = some ⟨false, 1⟩ := by decide
  have hclose : run ⟨false, 1⟩ [']'] = some outer := by decide
  change run outer (['['] ++ s ++ [']']) = some outer
  rw [run_append, run_append, hopen, Option.bind_some, run_of_forall_isPlain h,
    Option.bind_some, hclose]

theorem Closed.flatten {l : List (List Char)} (h : ∀ s ∈ l, Closed s) : Closed l.flatten := by
  induction l with
  | nil => rfl
  | cons s l ih =>
      rw [List.flatten_cons]
      exact (h s List.mem_cons_self).append (ih fun t ht => h t (List.mem_cons_of_mem _ ht))

/-- Closed texts with a comma between neighbours. -/
def commaJoin : List (List Char) → List Char
  | [] => []
  | [s] => s
  | s :: t :: r => s ++ ',' :: commaJoin (t :: r)

theorem toList_join (l : List String) :
    (Text.join "," l).toList = commaJoin (l.map String.toList) := by
  induction l with
  | nil => rfl
  | cons s l ih =>
      cases l with
      | nil => rfl
      | cons t r =>
          rw [Text.join, String.toList_append, String.toList_append, ih]
          simp [commaJoin]

theorem run_one_commaJoin {l : List (List Char)} (h : ∀ s ∈ l, Closed s) :
    run ⟨false, 1⟩ (commaJoin l) = some ⟨false, 1⟩ := by
  induction l with
  | nil => rfl
  | cons s l ih =>
      have hs : Closed s := h s List.mem_cons_self
      cases l with
      | nil => exact hs.run_one
      | cons t r =>
          have hcomma : run ⟨false, 1⟩ [','] = some ⟨false, 1⟩ := by decide
          change run ⟨false, 1⟩ (s ++ ([','] ++ commaJoin (t :: r))) = _
          rw [run_append, hs.run_one, Option.bind_some, run_append, hcomma, Option.bind_some]
          exact ih fun u hu => h u (List.mem_cons_of_mem _ hu)

/-- The text of a call. -/
def callText (name : List Char) (arguments : List (List Char)) : List Char :=
  name ++ '(' :: commaJoin arguments ++ [')']

theorem closed_callText {name : List Char} {arguments : List (List Char)}
    (hn : ∀ c ∈ name, isPlain c = true) (h : ∀ s ∈ arguments, Closed s) :
    Closed (callText name arguments) := by
  have hopen : run outer ['('] = some ⟨false, 1⟩ := by decide
  have hclose : run ⟨false, 1⟩ [')'] = some outer := by decide
  have htext : callText name arguments = name ++ (['('] ++ (commaJoin arguments ++ [')'])) := by
    simp [callText]
  rw [Closed, htext, run_append, closed_of_forall_isPlain hn, Option.bind_some, run_append, hopen,
    Option.bind_some, run_append, run_one_commaJoin h, Option.bind_some, hclose]

theorem pieces_append_comma {n : Nesting} {s : List Char} (h : run n s = some outer)
    (t : List Char) : pieces n (s ++ ',' :: t) = s :: pieces outer t := by
  induction s generalizing n with
  | nil =>
      cases h
      rw [List.nil_append, pieces, if_pos ⟨rfl, rfl⟩]
  | cons c s ih =>
      rw [run] at h
      split at h
      next => cases h
      next hc =>
        have hn : ¬(n = outer ∧ c = ',') := fun hh => hc ⟨hh.1, .inl hh.2⟩
        rw [List.cons_append, pieces, if_neg hn, ih h]

theorem pieces_of_run {n : Nesting} {s : List Char} (h : run n s = some outer) :
    pieces n s = [s] := by
  induction s generalizing n with
  | nil => rfl
  | cons c s ih =>
      rw [run] at h
      split at h
      next => cases h
      next hc =>
        have hn : ¬(n = outer ∧ c = ',') := fun hh => hc ⟨hh.1, .inl hh.2⟩
        rw [pieces, if_neg hn, ih h]

/-- Closed texts with commas between them are cut into these texts again. -/
theorem pieces_commaJoin {l : List (List Char)} (hl : l ≠ []) (h : ∀ s ∈ l, Closed s) :
    pieces outer (commaJoin l) = l := by
  induction l with
  | nil => exact absurd rfl hl
  | cons s l ih =>
      have hs : Closed s := h s List.mem_cons_self
      cases l with
      | nil => exact pieces_of_run hs
      | cons t r =>
          rw [commaJoin, pieces_append_comma hs,
            ih (List.cons_ne_nil _ _) fun u hu => h u (List.mem_cons_of_mem _ hu)]

end Nesting

end CoverageAccess
