import CoverageAccess.Constraint
import CoverageAccess.Proofs.Constraint.Nesting
/-!
# Reading clauses back

A `Piece` is a clause of an expression taken apart: the field's variable, its brackets, the conditions
around it, and the sizes of the last two axes if they are resampled. `Piece.ofChars?` reads the text
of a piece. It gives back what was written as long as the parts are `Readable`: a variable of plain
characters, brackets around plain characters, and quotations without a quote inside. So the text of a
readable piece stands for no other one (`Piece.eq_of_render_eq`).
-/

namespace CoverageAccess

open Nesting

namespace Clause

/-- The parts of the clause can be told apart in its text. -/
structure Readable (c : Clause) : Prop where
  target : IsPlainName c.target
  brackets : ∀ b ∈ c.brackets, IsBracket b
  conditions : ∀ t ∈ c.conditions, IsQuotation t

end Clause

/-- A clause of an expression taken apart: what is selected of a field, and the sizes of the last two
axes if they are resampled. -/
structure Piece where
  clause : Clause
  sizes : Option (Nat × Nat)
  deriving DecidableEq, Repr

/-- The text of a piece. -/
def Piece.render (p : Piece) : String :=
  match p.sizes with
  | none => p.clause.render
  | some (y, x) =>
    s!"scale_grid({p.clause.render},{Number.ofNatural y},{Number.ofNatural x})"

/-- The arguments of a text that is a call of that name. -/
def callArguments? (name t : List Char) : Option (List (List Char)) :=
  if t.takeWhile isPlain = name then
    match t.dropWhile isPlain with
    | '(' :: r => if r.getLast? = some ')' then some (pieces outer r.dropLast) else none
    | _ => none
  else none

/-- The texts up to every closing bracket. -/
def bracketRuns : List Char → List (List Char)
  | [] => []
  | c :: s =>
    if c = ']' then [c] :: bracketRuns s
    else
      match bracketRuns s with
      | [] => [[c]]
      | w :: ws => (c :: w) :: ws

/-- The clause of a variable with its brackets, and of the conditions around it. -/
def Clause.ofHyperslab (t : List Char) (conditions : List (List Char)) : Clause :=
  { target := String.ofList (t.takeWhile isPlain)
    brackets := (bracketRuns (t.dropWhile isPlain)).map String.ofList
    conditions := conditions.map String.ofList }

/-- The clause of a text. -/
def Clause.ofChars (t : List Char) : Clause :=
  match callArguments? "grid".toList t with
  | some (h :: conditions) => .ofHyperslab h conditions
  | _ => .ofHyperslab t []

/-- The piece of a text, if the text is one. -/
def Piece.ofChars? (t : List Char) : Option Piece :=
  match callArguments? "scale_grid".toList t with
  | some [inner, y, x] => do
    let y ← Number.natural? y
    let x ← Number.natural? x
    return ⟨.ofChars inner, some (y, x)⟩
  | some _ => none
  | none => some ⟨.ofChars t, none⟩

section Calls

variable {name : List Char} {arguments : List (List Char)}

theorem takeWhile_callText (hn : ∀ c ∈ name, isPlain c = true) :
    (callText name arguments).takeWhile isPlain = name := by
  rw [callText, List.append_assoc, List.takeWhile_append_of_pos hn, List.cons_append,
    List.takeWhile_cons_of_neg (by decide), List.append_nil]

theorem dropWhile_callText (hn : ∀ c ∈ name, isPlain c = true) :
    (callText name arguments).dropWhile isPlain = '(' :: commaJoin arguments ++ [')'] := by
  rw [callText, List.append_assoc, List.dropWhile_append_of_pos hn, List.cons_append,
    List.dropWhile_cons_of_neg (by decide)]

theorem callArguments?_callText (hn : ∀ c ∈ name, isPlain c = true) (ha : arguments ≠ [])
    (hc : ∀ s ∈ arguments, Closed s) :
    callArguments? name (callText name arguments) = some arguments := by
  rw [callArguments?, if_pos (takeWhile_callText hn), dropWhile_callText hn]
  simp only [List.cons_append]
  rw [if_pos List.getLast?_concat, List.dropLast_concat, pieces_commaJoin ha hc]

theorem callArguments?_callText_of_ne {other : List Char} (hn : ∀ c ∈ name, isPlain c = true)
    (hne : name ≠ other) : callArguments? other (callText name arguments) = none := by
  rw [callArguments?, if_neg]
  rw [takeWhile_callText hn]
  exact hne

theorem callArguments?_eq_none {t : List Char} (h : (t.dropWhile isPlain).head? ≠ some '(') :
    callArguments? name t = none := by
  unfold callArguments?
  split
  · split
    next r hr =>
      rw [hr] at h
      exact absurd rfl h
    next => rfl
  · rfl

end Calls

theorem bracketRuns_flatten {l : List (List Char)}
    (h : ∀ b ∈ l, ∃ s, b = '[' :: s ++ [']'] ∧ ∀ x ∈ s, isPlain x = true) :
    bracketRuns l.flatten = l := by
  have step (s rest : List Char) (hs : ∀ x ∈ s, x ≠ ']') :
      bracketRuns (s ++ ']' :: rest) = (s ++ [']']) :: bracketRuns rest := by
    induction s with
    | nil => simp [bracketRuns]
    | cons c s ih =>
        have hc : c ≠ ']' := hs c List.mem_cons_self
        rw [List.cons_append, bracketRuns, if_neg hc,
          ih fun x hx => hs x (List.mem_cons_of_mem _ hx)]
        rfl
  induction l with
  | nil => rfl
  | cons b l ih =>
      obtain ⟨s, rfl, hs⟩ := h b List.mem_cons_self
      have hplain : ∀ x ∈ '[' :: s, x ≠ ']' := by
        intro x hx
        rcases List.mem_cons.1 hx with rfl | hx
        · decide
        · intro e
          have := hs x hx
          rw [e] at this
          exact absurd this (by decide)
      rw [List.flatten_cons, List.append_assoc, List.singleton_append, step _ _ hplain,
        ih fun b hb => h b (List.mem_cons_of_mem _ hb)]

namespace Clause

variable {c : Clause}

theorem toList_join_empty (l : List String) :
    (Text.join "" l).toList = (l.map String.toList).flatten := by
  induction l with
  | nil => rfl
  | cons s l ih =>
      cases l with
      | nil => simp
      | cons t r =>
          rw [Text.join, String.toList_append, String.toList_append, ih]
          simp

theorem toList_hyperslab (c : Clause) :
    c.hyperslab.toList = c.target.toList ++ (c.brackets.map String.toList).flatten := by
  rw [hyperslab, String.toList_append, toList_join_empty]

/-- With conditions the text of a clause is a call, and without it is the variable with its brackets.
-/
theorem toList_render (c : Clause) :
    c.render.toList =
      if c.conditions = [] then c.hyperslab.toList
      else callText "grid".toList (c.hyperslab.toList :: c.conditions.map String.toList) := by
  unfold render
  split
  next h => rw [h, if_pos rfl]
  next conditions h =>
    rw [if_neg h]
    simp only [String.toList_append, toString, toList_join, List.map_cons, callText]
    simp

theorem dropWhile_hyperslab (h : c.Readable) :
    c.hyperslab.toList.dropWhile isPlain = (c.brackets.map String.toList).flatten ∧
      c.hyperslab.toList.takeWhile isPlain = c.target.toList := by
  rw [toList_hyperslab, List.dropWhile_append_of_pos h.target.plain,
    List.takeWhile_append_of_pos h.target.plain]
  cases hb : c.brackets with
  | nil => simp
  | cons b bs =>
      obtain ⟨s, hs, -⟩ := h.brackets b (hb ▸ List.mem_cons_self)
      rw [List.map_cons, List.flatten_cons, hs]
      have hplain : isPlain '[' = false := by decide
      simp [hplain]

theorem head?_dropWhile_hyperslab (h : c.Readable) :
    (c.hyperslab.toList.dropWhile isPlain).head? ≠ some '(' := by
  rw [(dropWhile_hyperslab h).1]
  cases hb : c.brackets with
  | nil => simp
  | cons b bs =>
      obtain ⟨s, hs, -⟩ := h.brackets b (hb ▸ List.mem_cons_self)
      rw [List.map_cons, List.flatten_cons, hs]
      simp

theorem ofHyperslab_hyperslab (h : c.Readable) :
    ofHyperslab c.hyperslab.toList (c.conditions.map String.toList) = c := by
  have hbrackets : bracketRuns (c.brackets.map String.toList).flatten =
      c.brackets.map String.toList := by
    apply bracketRuns_flatten
    intro b hb
    obtain ⟨t, ht, rfl⟩ := List.mem_map.1 hb
    exact h.brackets t ht
  have hback (l : List String) : (l.map String.toList).map String.ofList = l := by
    simp [List.map_map, Function.comp_def]
  rw [ofHyperslab, (dropWhile_hyperslab h).1, (dropWhile_hyperslab h).2, hbrackets, hback, hback,
    String.ofList_toList]

theorem closed_hyperslab (h : c.Readable) : Closed c.hyperslab.toList := by
  rw [toList_hyperslab]
  refine (closed_of_forall_isPlain h.target.plain).append (.flatten ?_)
  intro b hb
  obtain ⟨t, ht, rfl⟩ := List.mem_map.1 hb
  obtain ⟨s, hs, hplain⟩ := h.brackets t ht
  rw [hs]
  exact closed_bracket hplain

theorem closed_arguments (h : c.Readable) :
    ∀ s ∈ c.hyperslab.toList :: c.conditions.map String.toList, Closed s := by
  refine List.forall_mem_cons.2 ⟨closed_hyperslab h, ?_⟩
  intro t ht
  obtain ⟨u, hu, rfl⟩ := List.mem_map.1 ht
  obtain ⟨s, hs, hquote⟩ := h.conditions u hu
  rw [hs]
  exact closed_quotation hquote

theorem closed_render (h : c.Readable) : Closed c.render.toList := by
  rw [toList_render]
  split
  · exact closed_hyperslab h
  · exact closed_callText (by decide) (closed_arguments h)

theorem callArguments?_render_of_ne (h : c.Readable) {name : List Char}
    (hne : "grid".toList ≠ name) : callArguments? name c.render.toList = none := by
  rw [toList_render]
  split
  · exact callArguments?_eq_none (head?_dropWhile_hyperslab h)
  · exact callArguments?_callText_of_ne (by decide) hne

theorem ofChars_render (h : c.Readable) : ofChars c.render.toList = c := by
  have hback := ofHyperslab_hyperslab h
  by_cases hn : c.conditions = []
  · rw [hn] at hback
    rw [toList_render, if_pos hn, ofChars,
      callArguments?_eq_none (head?_dropWhile_hyperslab h)]
    exact hback
  · rw [toList_render, if_neg hn, ofChars,
      callArguments?_callText (by decide) (List.cons_ne_nil _ _) (closed_arguments h)]
    exact hback

end Clause

namespace Piece

variable {p q : Piece}

theorem toList_render_some (c : Clause) (y x : Nat) :
    (render ⟨c, some (y, x)⟩).toList =
      callText "scale_grid".toList [c.render.toList, Number.digits y, Number.digits x] := by
  simp [render, callText, commaJoin, toString, Number.ofNatural]

theorem closed_digits (n : Nat) : Closed (Number.digits n) :=
  closed_of_forall_isPlain fun _ hc => isPlain_of_isDigit (Number.isDigit_of_mem_digits hc)

theorem closed_scaled (h : p.clause.Readable) (y x : Nat) :
    ∀ s ∈ [p.clause.render.toList, Number.digits y, Number.digits x], Closed s := by
  simp only [List.forall_mem_cons, List.not_mem_nil, false_implies, implies_true, and_true]
  exact ⟨Clause.closed_render h, closed_digits y, closed_digits x⟩

theorem closed_render (h : p.clause.Readable) : Closed p.render.toList := by
  obtain ⟨c, sizes⟩ := p
  cases sizes with
  | none => exact Clause.closed_render h
  | some s =>
      rw [toList_render_some]
      exact closed_callText (by decide) (closed_scaled h s.1 s.2)

theorem ofChars?_render (h : p.clause.Readable) : ofChars? p.render.toList = some p := by
  obtain ⟨c, sizes⟩ := p
  cases sizes with
  | none =>
      have hnone : callArguments? "scale_grid".toList c.render.toList = none :=
        Clause.callArguments?_render_of_ne h (by decide)
      change ofChars? c.render.toList = _
      rw [ofChars?, hnone]
      exact congrArg (fun c => some (Piece.mk c none)) (Clause.ofChars_render h)
  | some s =>
      rw [toList_render_some, ofChars?,
        callArguments?_callText (by decide) (List.cons_ne_nil _ _) (closed_scaled h s.1 s.2)]
      simp only [Number.natural?_digits, Clause.ofChars_render h]
      rfl

/-- The text of a readable piece is that of no other one. -/
theorem eq_of_render_eq (hp : p.clause.Readable) (hq : q.clause.Readable)
    (h : p.render = q.render) : p = q := by
  have hread := ofChars?_render hp
  rw [h, ofChars?_render hq] at hread
  exact (Option.some.inj hread).symm

/-- The texts of readable pieces with commas between them are cut into these texts again. -/
theorem pieces_join_render {ps : List Piece} (hne : ps ≠ [])
    (h : ∀ p ∈ ps, p.clause.Readable) :
    (pieces outer (Text.join "," (ps.map render)).toList).map String.ofList = ps.map render := by
  have hclosed : ∀ s ∈ (ps.map render).map String.toList, Closed s := by
    intro s hs
    obtain ⟨t, ht, rfl⟩ := List.mem_map.1 hs
    obtain ⟨p, hp, rfl⟩ := List.mem_map.1 ht
    exact closed_render (h p hp)
  rw [toList_join, pieces_commaJoin (by simpa using hne) hclosed]
  simp [List.map_map, Function.comp_def]

end Piece

end CoverageAccess
