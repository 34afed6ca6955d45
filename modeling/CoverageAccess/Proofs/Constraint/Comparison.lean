import CoverageAccess.Proofs.Constraint.Expression
import Mathlib.Tactic.Ring
/-!
# Selections with one expression

Two selections of a coverage with plain names that have the same text for a field have the same
clause, and their scalings write the same behind the sizes (`clause_eq_of_fieldText_eq`). Unlike the
pieces of an expression, this also covers scalings with a reference system or an interpolation
method, which may hold any characters: the clause is closed, so it ends at the first outer comma
whatever follows.
-/

namespace CoverageAccess

open Nesting

/-- Closed texts before a comma are the same if all of it is the same. -/
theorem Nesting.Closed.append_comma_inj {s s' t t' : List Char} (hs : Closed s) (hs' : Closed s')
    (h : s ++ ',' :: t = s' ++ ',' :: t') : s = s' ∧ t = t' := by
  have hpieces := congrArg (pieces outer) h
  rw [pieces_append_comma hs, pieces_append_comma hs'] at hpieces
  obtain ⟨rfl, -⟩ := List.cons.inj hpieces
  exact ⟨rfl, (List.cons.inj (List.append_cancel_left h)).2⟩

/-- Copies of a text with commas between them, and the number of copies, give back the text. -/
theorem Text.join_replicate_inj {n : Nat} {s t : String} (hn : n ≠ 0)
    (h : join "," (List.replicate n s) = join "," (List.replicate n t)) : s = t := by
  obtain ⟨n, rfl⟩ := Nat.exists_eq_succ_of_ne_zero hn
  have hlength (n : Nat) (s : String) :
      (join "," (List.replicate (n + 1) s)).length = (n + 1) * s.length + n := by
    have hcomma : ",".length = 1 := rfl
    induction n with
    | zero => simp
    | succ n ih =>
        change (s ++ "," ++ join "," (List.replicate (n + 1) s)).length = _
        rw [String.length_append, String.length_append, ih, hcomma]
        ring
  have hprefix (s : String) :
      ∃ rest, (join "," (List.replicate (n + 1) s)).toList = s.toList ++ rest := by
    cases n with
    | zero => exact ⟨[], by simp⟩
    | succ n =>
        refine ⟨',' :: (join "," (List.replicate (n + 1) s)).toList, ?_⟩
        change (s ++ "," ++ join "," (List.replicate (n + 1) s)).toList = _
        simp
  obtain ⟨rest, hs⟩ := hprefix s
  obtain ⟨rest', ht⟩ := hprefix t
  have hst : s.length = t.length := by
    have := congrArg String.length h
    rw [hlength, hlength] at this
    exact Nat.eq_of_mul_eq_mul_left (Nat.succ_pos n) (Nat.add_right_cancel this)
  have happend : s.toList ++ rest = t.toList ++ rest' := by rw [← hs, h, ht]
  refine String.toList_inj.1 (List.append_inj_left happend ?_)
  rw [String.length_toList, String.length_toList, hst]

theorem callArguments?_ne_none {name s : List Char} (hn : ∀ c ∈ name, isPlain c = true) :
    callArguments? name (name ++ '(' :: s ++ [')']) ≠ none := by
  have hopen : isPlain '(' = false := by decide
  have htake : (name ++ '(' :: s ++ [')']).takeWhile isPlain = name := by
    rw [List.append_assoc, List.takeWhile_append_of_pos hn, List.cons_append,
      List.takeWhile_cons_of_neg (by decide), List.append_nil]
  have hdrop : (name ++ '(' :: s ++ [')']).dropWhile isPlain = '(' :: (s ++ [')']) := by
    rw [List.append_assoc, List.dropWhile_append_of_pos hn, List.cons_append,
      List.dropWhile_cons_of_neg (by decide)]
  rw [callArguments?, if_pos htake, hdrop]
  simp

namespace Coverage

variable {c : Coverage} {subsets subsets' : Table Subset} {scaling scaling' : Scaling} {f : Field}
  {text : String}

/-- The characters of the text of a field. -/
theorem toList_fieldText_or (h : c.fieldText subsets scaling f = .ok text) :
    ∃ clause, c.clause subsets f = .ok clause ∧
      ((scaling.isActive = false ∧ text = clause.render) ∨
        scaling.isActive = true ∧ ∃ front y x, c.coordinates = front ++ [y, x] ∧
          text.toList = "scale_grid".toList ++ '(' :: (clause.render.toList ++ ',' ::
            (Number.digits (scaling.sizeOf y) ++ ',' :: Number.digits (scaling.sizeOf x) ++
              scaling.tail.toList)) ++ [')']) := by
  obtain ⟨clause, hclause, htext⟩ := fieldText_eq_ok_or h
  refine ⟨clause, hclause, htext.imp_right ?_⟩
  rintro ⟨hactive, front, y, x, haxes, rfl⟩
  exact ⟨hactive, front, y, x, haxes, by simp [Number.ofNatural]⟩

theorem fieldText_congr {g : Field} (h : f.variableId = g.variableId) :
    c.fieldText subsets scaling f = c.fieldText subsets scaling g := by
  rw [fieldText, fieldText, clause, clause, h]

theorem fieldTexts_eq_ok_replicate {fs : List Field} {texts : List String}
    (hsame : ∀ g ∈ fs, g.variableId = f.variableId) (hf : f ∈ fs)
    (h : c.fieldTexts subsets scaling fs = .ok texts) :
    ∃ text, c.fieldText subsets scaling f = .ok text ∧
      texts = List.replicate fs.length text := by
  have hall := forall₂_of_fieldTexts h
  have htexts : ∀ t ∈ texts, c.fieldText subsets scaling f = .ok t := by
    intro t ht
    obtain ⟨g, hg, hgt⟩ := exists_of_mem_of_forall₂ hall ht
    rwa [fieldText_congr (hsame g hg)] at hgt
  have hpos : 0 < texts.length := by
    rw [← hall.length_eq]
    exact List.length_pos_of_mem hf
  obtain ⟨text, htext⟩ := List.exists_mem_of_length_pos hpos
  refine ⟨text, htexts text htext, ?_⟩
  rw [hall.length_eq, List.eq_replicate_iff]
  exact ⟨rfl, fun t ht => Except.ok.inj ((htexts t ht).symm.trans (htexts text htext))⟩

/-- Two selections with one text for a field have one clause, and their scalings the same tail. -/
theorem clause_eq_of_fieldText_eq (hc : c.Legible subsets) (hc' : c.Legible subsets')
    (hf : f ∈ c.fields) (hmode : scaling.mode = scaling'.mode)
    (h : c.fieldText subsets scaling f = .ok text)
    (h' : c.fieldText subsets' scaling' f = .ok text) :
    (∃ clause, c.clause subsets f = .ok clause ∧ c.clause subsets' f = .ok clause) ∧
      scaling.isActive = scaling'.isActive ∧
      (scaling.isActive = true → scaling.tail = scaling'.tail) := by
  obtain ⟨clause, hclause, htext⟩ := toList_fieldText_or h
  obtain ⟨clause', hclause', htext'⟩ := toList_fieldText_or h'
  have hr := clause_readable hc hf hclause
  have hr' := clause_readable hc' hf hclause'
  have heq (hrender : clause.render.toList = clause'.render.toList) : clause = clause' := by
    rw [← Clause.ofChars_render hr, hrender, Clause.ofChars_render hr']
  have hcall {b : Clause} (hb : b.Readable) (s : List Char)
      (hs : b.render.toList = "scale_grid".toList ++ '(' :: s ++ [')']) : False := by
    have hnone : callArguments? "scale_grid".toList b.render.toList = none :=
      Clause.callArguments?_render_of_ne hb (by decide)
    rw [hs] at hnone
    exact callArguments?_ne_none (by decide) hnone
  rcases htext with ⟨hactive, rfl⟩ | ⟨hactive, front, y, x, haxes, htext⟩
  · rcases htext' with ⟨hactive', htext'⟩ | ⟨-, _, _, _, -, htext'⟩
    · obtain rfl := heq (congrArg String.toList htext')
      exact ⟨⟨_, hclause, hclause'⟩, hactive.trans hactive'.symm, by simp [hactive]⟩
    · exact (hcall hr _ htext').elim
  · rcases htext' with ⟨-, rfl⟩ | ⟨hactive', front', y', x', haxes', htext'⟩
    · exact (hcall hr' _ htext).elim
    · obtain ⟨-, hgrid⟩ := List.append_inj' (haxes.symm.trans haxes') rfl
      simp only [List.cons.injEq, and_true] at hgrid
      obtain ⟨rfl, rfl⟩ := hgrid
      have hsize (a : Coordinate) : scaling.sizeOf a = scaling'.sizeOf a := by
        rw [Scaling.sizeOf, Scaling.sizeOf, hmode]
      have harguments := List.append_cancel_right (htext.symm.trans htext')
      have hinner := (List.cons.inj (List.append_cancel_left harguments)).2
      obtain ⟨hrender, hrest⟩ :=
        (Clause.closed_render hr).append_comma_inj (Clause.closed_render hr') hinner
      obtain rfl := heq hrender
      rw [hsize, hsize] at hrest
      refine ⟨⟨_, hclause, hclause'⟩, hactive.trans hactive'.symm, fun _ => ?_⟩
      exact String.toList_inj.1 (List.append_cancel_left hrest)

end Coverage

end CoverageAccess
