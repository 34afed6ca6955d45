import CoverageAccess.Text.Blank
/-!
# Placed characters

The characters of a settings document, each with the place where it stands. What a character means
in a document depends on its column and its line, so `Placed.ofText?` sets these once, and every
reader passes them on with the character.
-/

namespace CoverageAccess

namespace Settings

/-- Where a character stands: how many bytes of UTF-8 precede it, and its line and its column, from
0. A column has one character, however many bytes that has. -/
structure Mark where
  offset : Nat
  line : Nat
  column : Nat
  deriving DecidableEq, Repr

/-- A character with its place. -/
structure Placed where
  char : Char
  mark : Mark
  deriving DecidableEq, Repr

def isGap (c : Char) : Bool :=
  c == ' ' || c == '\t'

def isBreak (c : Char) : Bool :=
  c == '\n' || c == '\u2028' || c == '\u2029'

def isAllowed (c : Char) : Bool :=
  c == '\t' || c == '\n' || c == '\r' || ('\x20' ≤ c && c ≤ '\x7e') || c == '\u0085' ||
    ('\u00a0' ≤ c && c.toNat ≤ 0xFFFD) || 0x10000 ≤ c.toNat

/-- The text with a line feed for a carriage return, for the two together and for a next-line
character. -/
def normalLines : List Char → List Char
  | [] => []
  | '\r' :: '\n' :: s => '\n' :: normalLines s
  | '\r' :: s => '\n' :: normalLines s
  | '\u0085' :: s => '\n' :: normalLines s
  | c :: s => c :: normalLines s

def Mark.after (m : Mark) (c : Char) : Mark :=
  if isBreak c then ⟨m.offset + c.utf8Size, m.line + 1, 0⟩
  else ⟨m.offset + c.utf8Size, m.line, m.column + 1⟩

namespace Placed

/-- The characters with their places, the first of which is given. -/
def place (m : Mark) : List Char → List Placed
  | [] => []
  | c :: s => ⟨c, m⟩ :: place (m.after c) s

@[simp] theorem place_nil (m : Mark) : place m [] = [] := rfl

theorem place_cons (m : Mark) (c : Char) (s : List Char) :
    place m (c :: s) = ⟨c, m⟩ :: place (m.after c) s := rfl

@[simp] theorem map_char_place (m : Mark) (s : List Char) : (place m s).map Placed.char = s := by
  induction s generalizing m with
  | nil => rfl
  | cons c s ih => simp [place_cons, ih]

/-- The characters of a document; nothing if one of them may not stand there. -/
def ofText? (s : String) : Option (List Placed) :=
  if s.toList.all isAllowed then some (place ⟨0, 0, 0⟩ (normalLines s.toList)) else none

end Placed

/-- The text begins with a gap or a line end, or there is none. -/
def atGap : List Placed → Bool
  | [] => true
  | c :: _ => isGap c.char || isBreak c.char

/-- The text begins with the three characters `c` and a gap, at the beginning of a line. These
divide documents if `c` is a minus or a point. -/
def atTriple (c : Char) : List Placed → Bool
  | a :: b :: d :: s =>
    a.mark.column == 0 && a.char == c && b.char == c && d.char == c && atGap s
  | _ => false

def atDivider (s : List Placed) : Bool :=
  atTriple '-' s || atTriple '.' s

end Settings

end CoverageAccess
