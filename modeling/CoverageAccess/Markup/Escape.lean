import CoverageAccess.Text.Hex
import CoverageAccess.Number.Integer
/-!
# Character references

`escape` writes the five characters that markup gives a meaning to as references; `unescape?`
resolves references to the five names and to code points. A reference starts at an ampersand and
ends at the next semicolon; an ampersand without one, an unknown name, a code point that is no
character and the code point zero are refused. `unescape?` undoes `escape` on every text
(`unescape?_escape`).
-/

namespace CoverageAccess

namespace Markup

/-- A character as it is written in element content and attribute values. -/
def escapeChar (c : Char) : List Char :=
  match c with
  | '<' => "&lt;".toList
  | '>' => "&gt;".toList
  | '&' => "&amp;".toList
  | '\'' => "&apos;".toList
  | '"' => "&quot;".toList
  | c => [c]

/-- A text as it is written in element content and attribute values. -/
def escape (s : List Char) : List Char :=
  s.flatMap escapeChar

/-- `escape` on strings. -/
def escaped (s : String) : String :=
  String.ofList (escape s.toList)

/-- The value of hexadecimal digits after digits of value `n`. -/
def hexFrom? (n : Nat) : List Char → Option Nat
  | [] => some n
  | c :: s => do hexFrom? (16 * n + (← Hex.value? c)) s

/-- The code point that a numeric reference names: up to seven decimal digits, or `x` and up to six
hexadecimal ones. No digits at all name the code point zero. -/
def codePoint? : List Char → Option Nat
  | 'x' :: s => if s.length ≤ 6 then hexFrom? 0 s else none
  | s => if s.length ≤ 7 then Number.digitsFrom? 0 s else none

/-- The character that the text between `&` and `;` refers to. -/
def reference? : List Char → Option Char
  | '#' :: s => do
    let n ← codePoint? s
    if n ≠ 0 ∧ n.isValidChar then some (Char.ofNat n) else none
  | s =>
    match String.ofList s with
    | "lt" => some '<'
    | "gt" => some '>'
    | "amp" => some '&'
    | "apos" => some '\''
    | "quot" => some '"'
    | _ => none

/-- Resolves references. The first argument is the part of a reference that has been read since its
ampersand, in reverse, while one is open. -/
def unescapeFrom : Option (List Char) → List Char → Option (List Char)
  | none, [] => some []
  | some _, [] => none
  | none, c :: s =>
    if c = '&' then unescapeFrom (some []) s
    else (unescapeFrom none s).map (c :: ·)
  | some name, c :: s =>
    if c = '&' then none
    else if c = ';' then do
      let x ← reference? name.reverse
      (unescapeFrom none s).map (x :: ·)
    else unescapeFrom (some (c :: name)) s

def unescape? (s : List Char) : Option (List Char) :=
  unescapeFrom none s

@[simp] theorem escape_nil : escape [] = [] := rfl

@[simp] theorem escape_cons (c : Char) (s : List Char) :
    escape (c :: s) = escapeChar c ++ escape s := rfl

theorem escape_append (s t : List Char) : escape (s ++ t) = escape s ++ escape t := by
  simp [escape]

theorem unescapeFrom_escapeChar (c : Char) (s : List Char) :
    unescapeFrom none (escapeChar c ++ s) = (unescapeFrom none s).map (c :: ·) := by
  unfold escapeChar
  split
  · simp [unescapeFrom, reference?]
  · simp [unescapeFrom, reference?]
  · simp [unescapeFrom, reference?]
  · simp [unescapeFrom, reference?]
  · simp [unescapeFrom, reference?]
  next h _ _ => simp [unescapeFrom]; grind

theorem unescape?_escape (s : List Char) : unescape? (escape s) = some s := by
  unfold unescape?
  induction s with
  | nil => rfl
  | cons c s ih => rw [escape_cons, unescapeFrom_escapeChar, ih]; rfl

end Markup

end CoverageAccess
