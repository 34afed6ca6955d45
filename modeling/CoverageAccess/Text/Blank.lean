/-!
# Blank characters and trimming

`isBlank` is the Unicode property `White_Space`, as a table of ranges. Names, list items and text
positions are trimmed by it. `isLineBlank` holds of the four characters that markup treats as
white space; runs of element text are trimmed by that smaller class.

`trimBy p` removes the characters of class `p` from both ends of a list. The string form
`trim` is `trimBy isBlank` read through `String.toList`.
-/

namespace CoverageAccess

namespace Text

/-- The ranges of the Unicode property `White_Space`, both ends included. -/
def blankRanges : List (Nat × Nat) :=
  [(0x9, 0xD), (0x20, 0x20), (0x85, 0x85), (0xA0, 0xA0), (0x1680, 0x1680), (0x2000, 0x200A),
    (0x2028, 0x2029), (0x202F, 0x202F), (0x205F, 0x205F), (0x3000, 0x3000)]

/-- A character with the Unicode property `White_Space`. -/
def isBlank (c : Char) : Bool :=
  blankRanges.any fun r => r.1 ≤ c.toNat && c.toNat ≤ r.2

/-- Space, tab, carriage return and line feed: the white space of markup. -/
def isLineBlank (c : Char) : Bool :=
  c == ' ' || c == '\t' || c == '\r' || c == '\n'

/-- Without the leading characters of class `p`. -/
def trimStart (p : Char → Bool) (s : List Char) : List Char :=
  s.dropWhile p

/-- Without the trailing characters of class `p`. -/
def trimEnd (p : Char → Bool) (s : List Char) : List Char :=
  (s.reverse.dropWhile p).reverse

/-- Without the characters of class `p` at either end. -/
def trimBy (p : Char → Bool) (s : List Char) : List Char :=
  trimEnd p (trimStart p s)

def trim (s : String) : String :=
  String.ofList (trimBy isBlank s.toList)

/-- The text holds nothing but blank characters. -/
def isAllBlank (s : String) : Bool :=
  s.toList.all isBlank

@[simp] theorem toList_trim (s : String) : (trim s).toList = trimBy isBlank s.toList := by
  simp [trim]

@[simp] theorem trimStart_nil (p : Char → Bool) : trimStart p [] = [] := rfl

@[simp] theorem trimEnd_nil (p : Char → Bool) : trimEnd p [] = [] := rfl

@[simp] theorem trimBy_nil (p : Char → Bool) : trimBy p [] = [] := rfl

theorem trimEnd_concat_of_neg {p : Char → Bool} {c : Char} (s : List Char) (hc : p c = false) :
    trimEnd p (s ++ [c]) = s ++ [c] := by
  simp [trimEnd, hc]

theorem isBlank_of_isLineBlank {c : Char} (hc : isLineBlank c = true) : isBlank c = true := by
  simp only [isLineBlank, Bool.or_eq_true, beq_iff_eq] at hc
  rcases hc with ((rfl | rfl) | rfl) | rfl <;> decide

/-- Core's white space is blank. -/
theorem isBlank_of_isWhitespace {c : Char} (hc : c.isWhitespace = true) : isBlank c = true := by
  simp only [Char.isWhitespace, Bool.or_eq_true, decide_eq_true_eq] at hc
  rcases hc with ((rfl | rfl) | rfl) | rfl <;> decide

end Text

end CoverageAccess
