import CoverageAccess.Settings.Scalar
/-!
# Tokens of settings documents

The tokens of a document make its structure plain: where a list or a map begins and ends, be it in
brackets or by indentation, and which token begins a key. That a token begins a key shows only at
the colon after it. So `Progress` keeps for each level of brackets the last place where a key may
have begun, and the token that says so is put in later. A key stands on one line and is short.

`tokens?` recurses on fuel; every step takes a character, so one more than the length of the text is
enough.
-/

namespace CoverageAccess

namespace Settings

/-- A token of a settings document. -/
inductive Token where
  /-- The line of minus signs before a document. -/
  | documentStart
  /-- The line of points after a document. -/
  | documentEnd
  /-- The begin of a list in lines. -/
  | listStart
  /-- The begin of a map in lines. -/
  | mapStart
  /-- The end of a list or a map in lines. -/
  | blockEnd
  /-- The minus before an item. -/
  | item
  | key
  | value
  | openList
  | closeList
  | openMap
  | closeMap
  | comma
  | plain (s : String)
  | quoted (s : String)
  deriving DecidableEq, Repr

/-- A place where a key may have begun. -/
structure Candidate where
  /-- How many tokens precede it. -/
  number : Nat
  /-- It stands where only a key can stand. -/
  required : Bool
  mark : Mark
  deriving DecidableEq, Repr

/-- The most bytes between the begin of a key and its colon. -/
def longestKey : Nat := 1024

/-- A key that began at the candidate cannot have its colon at a later place. -/
def Candidate.isLapsed (c : Candidate) (m : Mark) : Bool :=
  c.mark.line < m.line || c.mark.offset + longestKey < m.offset

/-- How far the tokens of a document have been found. -/
structure Progress where
  /-- The tokens so far, the last of which comes first. -/
  tokens : List Token
  count : Nat
  /-- A key may begin with the next token. -/
  keyAllowed : Bool
  candidate : Option Candidate
  /-- The candidates outside of the brackets that are open, innermost first. -/
  outer : List (Option Candidate)
  /-- The columns of the lists and maps in lines that are open, innermost first. -/
  columns : List Nat

namespace Progress

def start : Progress := ⟨[], 0, true, none, [], []⟩

def within (q : Progress) : Bool :=
  !q.outer.isEmpty

def push (q : Progress) (t : Token) : Progress :=
  { q with tokens := t :: q.tokens, count := q.count + 1 }

/-- One more token, before that of the given number. -/
def insert (q : Progress) (number : Nat) (t : Token) : Progress :=
  { q with tokens := q.tokens.insertIdx (q.count - number) t, count := q.count + 1 }

/-- A list or a map in lines begins in a column, before the token of the given number, unless there
is one in the column already. -/
def openBlock (q : Progress) (column number : Nat) (t : Token) : Progress :=
  if q.within || q.columns.head?.any (column ≤ ·) then q
  else { q with columns := column :: q.columns }.insert number t

/-- Ends the lists and maps in lines whose columns are of class `p`. -/
def closeBlocks (q : Progress) (p : Nat → Bool) : Progress :=
  if q.within then q
  else
    let closed := (q.columns.takeWhile p).length
    { q with
      tokens := List.replicate closed .blockEnd ++ q.tokens
      count := q.count + closed
      columns := q.columns.dropWhile p }

/-- Gives up the candidate, unless it is required. -/
def forget (q : Progress) : Option Progress :=
  if q.candidate.any Candidate.required then none else some { q with candidate := none }

/-- Gives up all candidates that have lapsed, none of which may be required. -/
def lapse (q : Progress) (m : Mark) : Option Progress :=
  let lapsed (e : Option Candidate) : Bool := e.any (·.isLapsed m)
  if !(q.candidate :: q.outer).any lapsed then some q
  else if (q.candidate :: q.outer).any fun e => lapsed e && e.any Candidate.required then none
  else
    let kept (e : Option Candidate) : Option Candidate := if lapsed e then none else e
    some { q with candidate := kept q.candidate, outer := q.outer.map kept }

/-- Takes a place as a candidate, if a key may begin there. It is required in the column of the list
or map in lines around it. -/
def consider (q : Progress) (m : Mark) : Option Progress :=
  if q.keyAllowed then
    q.forget.map fun q =>
      { q with candidate := some ⟨q.count, !q.within && q.columns.head? == some m.column, m⟩ }
  else some q

/-- The progress with another answer to whether a key may begin next. -/
def allow (q : Progress) (allowed : Bool) : Progress :=
  { q with keyAllowed := allowed }

def divider (q : Progress) (t : Token) : Option Progress :=
  (q.closeBlocks fun _ => true).forget.map fun q => (q.allow false).push t

def opening (q : Progress) (m : Mark) (t : Token) : Option Progress :=
  (q.consider m).map fun q =>
    { q with candidate := none, outer := q.candidate :: q.outer, keyAllowed := true }.push t

def closing (q : Progress) (t : Token) : Option Progress :=
  q.forget.map fun q =>
    match q.outer with
    | [] => (q.allow false).push t
    | c :: outer => { q with candidate := c, outer, keyAllowed := false }.push t

def comma (q : Progress) : Option Progress :=
  q.forget.map fun q => (q.allow true).push .comma

/-- The minus before an item. Brackets may not hold one, which shows later. -/
def item (q : Progress) (m : Mark) : Option Progress :=
  if !q.within && !q.keyAllowed then none
  else
    (q.openBlock m.column q.count .listStart).forget.map fun q => (q.allow true).push .item

def explicitKey (q : Progress) (m : Mark) : Option Progress :=
  if !q.within && !q.keyAllowed then none
  else
    (q.openBlock m.column q.count .mapStart).forget.map fun q =>
      (q.allow !q.within).push .key

/-- A colon. The token of its candidate begins a key, and maybe a map in lines. -/
def colon (q : Progress) (m : Mark) : Option Progress :=
  match q.candidate with
  | some c =>
    let q := (q.insert c.number .key).openBlock c.mark.column c.number .mapStart
    some ({ q with candidate := none, keyAllowed := false }.push .value)
  | none =>
    if !q.within && !q.keyAllowed then none
    else
      let q := q.openBlock m.column q.count .mapStart
      some ((q.allow !q.within).push .value)

/-- A scalar; the flag says whether a key may begin after it. -/
def scalar (q : Progress) (m : Mark) (t : Token) (allowed : Bool) : Option Progress :=
  (q.consider m).map fun q => (q.allow allowed).push t

/-- A scalar without quotes that begins with `c` before `s`, and the text after it. Its lines are
indented more than the list or map in lines around it. -/
def plain? (q : Progress) (c : Placed) (s : List Placed) : Option (Progress × List Placed) := do
  let indent := (q.columns.head?.map (· + 1)).getD 0
  let (rest, allowed, s) ← plainScalar q.within indent .empty s
  return (← q.scalar c.mark (.plain (String.ofList (c.char :: rest))) allowed, s)

/-- A scalar in quotes, of which the reader has found the characters, and the text after it. -/
def quoted? (q : Progress) (m : Mark) (found : Option (List Char × List Placed)) :
    Option (Progress × List Placed) := do
  let (content, s) ← found
  return (← q.scalar m (.quoted (String.ofList content)) false, s)

/-- The progress after the next token, which begins with `c` before `s`, and the text after it. -/
def next? (q : Progress) (c : Placed) (s : List Placed) : Option (Progress × List Placed) := do
  let q ← q.lapse c.mark
  let q := q.closeBlocks (c.mark.column < ·)
  let whole (r : Option Progress) : Option (Progress × List Placed) := r.map fun q => (q, s)
  if atTriple '-' (c :: s) then (q.divider .documentStart).map fun q => (q, s.drop 2)
  else if atTriple '.' (c :: s) then (q.divider .documentEnd).map fun q => (q, s.drop 2)
  else
    match c.char with
    | '[' => whole (q.opening c.mark .openList)
    | '\x7b' => whole (q.opening c.mark .openMap)
    | ']' => whole (q.closing .closeList)
    | '\x7d' => whole (q.closing .closeMap)
    | ',' => whole q.comma
    | '"' => q.quoted? c.mark (doubleQuoted .empty s)
    | '\'' => q.quoted? c.mark (singleQuoted .empty s)
    | d =>
      if d = '-' ∧ atGap s then whole (q.item c.mark)
      else if d = '?' ∧ (q.within ∨ atGap s) then whole (q.explicitKey c.mark)
      else if d = ':' ∧ (q.within ∨ atGap s) then whole (q.colon c.mark)
      else if beginsPlain q.within d s then q.plain? c s
      else none

def finish? (q : Progress) : Option (List Token) :=
  (q.closeBlocks fun _ => true).forget.map fun q => q.tokens.reverse

end Progress

/-- The text from the next token on, and whether a key may begin with it. Spaces, comments and ends
of lines are passed over; tabs too, but not where a key may begin outside of brackets. A byte order
mark may begin a line. -/
def skipSpace (within allowed comment : Bool) : List Placed → Bool × List Placed
  | [] => (allowed, [])
  | c :: s =>
    if isBreak c.char then skipSpace within (allowed || !within) false s
    else if comment then skipSpace within allowed true s
    else if c.char = '#' then skipSpace within allowed true s
    else if c.char = ' ' ∨ (c.char = '\t' ∧ (within ∨ !allowed)) then
      skipSpace within allowed false s
    else if c.char = '\uFEFF' ∧ c.mark.column = 0 then skipSpace within allowed false s
    else (allowed, c :: s)

/-- Nothing but the beginning of a text is passed over. -/
theorem skipSpace_isSuffix (within allowed comment : Bool) (s : List Placed) :
    (skipSpace within allowed comment s).2 <:+ s := by
  induction s generalizing allowed comment with
  | nil => exact List.suffix_rfl
  | cons c s ih =>
    have hrest (a k : Bool) : (skipSpace within a k s).2 <:+ c :: s :=
      (ih a k).trans (List.suffix_cons c s)
    unfold skipSpace
    split
    · exact hrest _ _
    · split
      · exact hrest _ _
      · split
        · exact hrest _ _
        · split
          · exact hrest _ _
          · split
            · exact hrest _ _
            · exact List.suffix_rfl

/-- The tokens of a text after some progress. -/
def tokensFrom? : Nat → Progress → List Placed → Option (List Token)
  | 0, _, _ => none
  | n + 1, q, s =>
    let r := skipSpace q.within q.keyAllowed false s
    let q := q.allow r.1
    match r.2 with
    | [] => q.finish?
    | c :: s => (q.next? c s).bind fun e => tokensFrom? n e.1 e.2

def tokens? (s : List Placed) : Option (List Token) :=
  tokensFrom? (s.length + 1) .start s

end Settings

end CoverageAccess
