import CoverageAccess.Text.Blank
/-!
# Cutting text at characters

`split p` cuts a list at every character of class `p` and keeps empty pieces, so joining the
pieces again loses nothing but the separators. `cut? p` cuts at the first such character only;
`cutLast? p` at the last. `words` are the maximal runs without blanks.

Each function has a form on `List Char`, where proofs work, and a form on `String`.
-/

namespace CoverageAccess

namespace Text

/-- The pieces between the characters of class `p`, empty ones included. There is always at least
one piece. -/
def split (p : Char → Bool) : List Char → List (List Char)
  | [] => [[]]
  | c :: s =>
    if p c then [] :: split p s
    else
      match split p s with
      | [] => [[c]]
      | w :: ws => (c :: w) :: ws

/-- The text before and after the first character of class `p`. -/
def cut? (p : Char → Bool) : List Char → Option (List Char × List Char)
  | [] => none
  | c :: s =>
    if p c then some ([], s)
    else (cut? p s).map fun r => (c :: r.1, r.2)

/-- The text before and after the last character of class `p`. -/
def cutLast? (p : Char → Bool) (s : List Char) : Option (List Char × List Char) :=
  (cut? p s.reverse).map fun r => (r.2.reverse, r.1.reverse)

/-- The maximal runs of characters that are not blank. -/
def wordRuns (s : List Char) : List (List Char) :=
  (split isBlank s).filter fun w => !w.isEmpty

/-- `split` on strings, at one separator. -/
def fields (sep : Char) (s : String) : List String :=
  (split (· == sep) s.toList).map String.ofList

/-- `cut?` on strings, at one separator. -/
def cutAt? (sep : Char) (s : String) : Option (String × String) :=
  (cut? (· == sep) s.toList).map fun r => (String.ofList r.1, String.ofList r.2)

/-- The words of a text, in order. -/
def words (s : String) : List String :=
  (wordRuns s.toList).map String.ofList

/-- The texts with `sep` between neighbours. -/
def join (sep : String) : List String → String
  | [] => ""
  | [s] => s
  | s :: t :: r => s ++ sep ++ join sep (t :: r)

/-- What follows `start`, when the text begins with it. -/
def dropStart? : List Char → List Char → Option (List Char)
  | [], s => some s
  | _ :: _, [] => none
  | a :: start, c :: s => if a = c then dropStart? start s else none

/-- What precedes `tail`, when the text ends with it. -/
def dropTail? (tail s : List Char) : Option (List Char) :=
  (dropStart? tail.reverse s.reverse).map List.reverse

/-- The text begins with `start`. -/
def startsWith (start : String) (s : String) : Bool :=
  (dropStart? start.toList s.toList).isSome

/-- The text with its ASCII capitals made small. -/
def lower (s : String) : String :=
  String.ofList (s.toList.map Char.toLower)

/-- The character `c` occurs in the text. -/
def mentions (c : Char) (s : String) : Bool :=
  s.toList.contains c

@[simp] theorem split_nil (p : Char → Bool) : split p [] = [[]] := rfl

theorem split_ne_nil (p : Char → Bool) (s : List Char) : split p s ≠ [] := by
  cases s with
  | nil => simp
  | cons c s =>
    unfold split
    split
    · simp
    · split <;> simp

@[simp] theorem join_nil (sep : String) : join sep [] = "" := rfl

@[simp] theorem join_singleton (sep s : String) : join sep [s] = s := rfl

theorem dropStart?_eq_some_iff {start s rest : List Char} :
    dropStart? start s = some rest ↔ s = start ++ rest := by
  induction start generalizing s with
  | nil => cases s <;> simp [dropStart?]
  | cons a start ih =>
    cases s with
    | nil => simp [dropStart?]
    | cons c s =>
      by_cases h : a = c
      · subst h
        simp [dropStart?, ih]
      · simp [dropStart?, h, Ne.symm h]

end Text

end CoverageAccess
