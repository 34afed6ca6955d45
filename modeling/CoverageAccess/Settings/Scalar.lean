import CoverageAccess.Settings.Placed
import CoverageAccess.Text.Hex
/-!
# Scalars in settings documents

A scalar is written in double quotes with backslash escapes, in single quotes, in which a quote is
written twice, or without quotes. It may go on over several lines: gaps around the end of a line are
dropped, and a single line feed stands for a space. Each reader answers the characters of the scalar
and the text after it; it carries along the `Space` that it has passed since the last character.
-/

namespace CoverageAccess

namespace Settings

/-- What stands between two characters of a scalar. -/
inductive Space where
  /-- A gap, or nothing at all; its last character comes first. -/
  | gap (s : List Char)
  /-- Ends of lines, the last of which comes first. The first line end is not there if a backslash
  stood before it. -/
  | breaks (first : Option Char) (more : List Char)
  deriving DecidableEq, Repr

namespace Space

def empty : Space := gap []

def hasBreak : Space → Bool
  | gap _ => false
  | breaks .. => true

/-- The space with one more character of a gap, which counts only before the end of the line. -/
def addGap (c : Char) : Space → Space
  | gap s => gap (c :: s)
  | breaks first more => breaks first more

/-- The space with one more end of a line, which a gap before it does not outlive. -/
def addBreak (c : Char) : Space → Space
  | gap _ => breaks (some c) []
  | breaks first more => breaks first (c :: more)

def text : Space → List Char
  | gap s => s.reverse
  | breaks (some '\n') [] => [' ']
  | breaks (some '\n') more => more.reverse
  | breaks first more => first.toList ++ more.reverse

@[simp] theorem text_empty : empty.text = [] := rfl

@[simp] theorem text_addBreak_gap (s : List Char) : ((gap s).addBreak '\n').text = [' '] := rfl

end Space

/-- The character that a backslash and a letter stand for, for escapes without digits. -/
def shortEscape? (c : Char) : Option Char :=
  match c with
  | '0' => some '\x00'
  | 'a' => some '\x07'
  | 'b' => some '\x08'
  | 't' | '\t' => some '\t'
  | 'n' => some '\n'
  | 'v' => some '\x0b'
  | 'f' => some '\x0c'
  | 'r' => some '\r'
  | 'e' => some '\x1b'
  | ' ' => some ' '
  | '"' => some '"'
  | '/' => some '/'
  | '\\' => some '\\'
  | 'N' => some '\u0085'
  | '_' => some '\u00a0'
  | 'L' => some '\u2028'
  | 'P' => some '\u2029'
  | _ => none

/-- The character whose code point the hexadecimal digits give. -/
def codePoint? (digits : List Placed) : Option Char := do
  let n ← digits.foldlM (fun n c => (Hex.value? c.char).map fun d => 16 * n + d) 0
  if n.isValidChar then some (Char.ofNat n) else none

/-- Characters before those that a reader finds, unless it finds none. -/
def before (s : List Char) (r : Option (List Char × List Placed)) :
    Option (List Char × List Placed) :=
  r.map fun e => (s ++ e.1, e.2)

/-- The scalar after an opening double quote. -/
def doubleQuoted (w : Space) : List Placed → Option (List Char × List Placed)
  | [] => none
  | ⟨'"', _⟩ :: s => some (w.text, s)
  | ⟨'\\', _⟩ :: ⟨'x', _⟩ :: a :: b :: s =>
    (codePoint? [a, b]).bind fun c => before (w.text ++ [c]) (doubleQuoted .empty s)
  | ⟨'\\', _⟩ :: ⟨'u', _⟩ :: a :: b :: c :: d :: s =>
    (codePoint? [a, b, c, d]).bind fun e => before (w.text ++ [e]) (doubleQuoted .empty s)
  | ⟨'\\', _⟩ :: ⟨'U', _⟩ :: a :: b :: c :: d :: e :: f :: g :: h :: s =>
    (codePoint? [a, b, c, d, e, f, g, h]).bind fun i =>
      before (w.text ++ [i]) (doubleQuoted .empty s)
  | ⟨'\\', _⟩ :: c :: s =>
    if isBreak c.char then before w.text (doubleQuoted (.breaks none []) s)
    else (shortEscape? c.char).bind fun e => before (w.text ++ [e]) (doubleQuoted .empty s)
  | ⟨'\\', _⟩ :: [] => none
  | c :: s =>
    if atDivider (c :: s) then none
    else if isGap c.char then doubleQuoted (w.addGap c.char) s
    else if isBreak c.char then doubleQuoted (w.addBreak c.char) s
    else before (w.text ++ [c.char]) (doubleQuoted .empty s)

/-- The scalar after an opening single quote. -/
def singleQuoted (w : Space) : List Placed → Option (List Char × List Placed)
  | [] => none
  | ⟨'\'', _⟩ :: ⟨'\'', _⟩ :: s => before (w.text ++ ['\'']) (singleQuoted .empty s)
  | ⟨'\'', _⟩ :: s => some (w.text, s)
  | c :: s =>
    if atDivider (c :: s) then none
    else if isGap c.char then singleQuoted (w.addGap c.char) s
    else if isBreak c.char then singleQuoted (w.addBreak c.char) s
    else before (w.text ++ [c.char]) (singleQuoted .empty s)

def isFlowMark (c : Char) : Bool :=
  "[]\x7b\x7d,".toList.contains c

/-- The characters that do not begin a scalar without quotes. -/
def isIndicator (c : Char) : Bool :=
  "-?:,[]\x7b\x7d#&*!|>'\"%@".toList.contains c || c == Char.ofNat 0x60

/-- A scalar without quotes can begin with `c` before `s`. A minus may be its first character if no
gap follows, and outside of brackets so may a colon or a question mark. -/
def beginsPlain (within : Bool) (c : Char) (s : List Placed) : Bool :=
  if c == '-' then !atGap s
  else if c == '?' || c == ':' then !within && !atGap s
  else !isIndicator c && !isGap c && !isBreak c

/-- A colon within brackets that cannot be told from the end of a key: one of the other marks
follows it. -/
def isUnclear (within : Bool) (c : Char) (s : List Placed) : Bool :=
  within && c == ':' && s.head?.any fun d => isFlowMark d.char || d.char == '?'

/-- A scalar without quotes ends before the character `c`, after the space `w` and before `s`.
Outside of brackets the next line has to be indented; `indent` is the least column for it. -/
def endsPlain (within : Bool) (indent : Nat) (w : Space) (c : Placed) (s : List Placed) : Bool :=
  (w.hasBreak && !within && c.mark.column < indent) || atDivider (c :: s) ||
    (c.char == '#' && w != .empty) || (c.char == ':' && atGap s) ||
    (within && isFlowMark c.char)

/-- The rest of a scalar without quotes, whether it ends after the end of a line, and the text after
it. A tab must not stand for the indentation of a line. -/
def plainScalar (within : Bool) (indent : Nat) (w : Space) :
    List Placed → Option (List Char × Bool × List Placed)
  | [] => some ([], w.hasBreak, [])
  | c :: s =>
    if isGap c.char then
      if w.hasBreak ∧ c.mark.column < indent ∧ c.char = '\t' then none
      else plainScalar within indent (w.addGap c.char) s
    else if isBreak c.char then plainScalar within indent (w.addBreak c.char) s
    else if endsPlain within indent w c s then some ([], w.hasBreak, c :: s)
    else if isUnclear within c.char s then none
    else (plainScalar within indent .empty s).map fun e => (w.text ++ c.char :: e.1, e.2)

end Settings

end CoverageAccess
