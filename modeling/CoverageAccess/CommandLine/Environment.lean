import CoverageAccess.Files
import CoverageAccess.Text.Alphanumeric
/-!
# Environment variables

The command line also listens to environment variables. A file of assignments may add to them; it
does not override a variable that is there, and it is read up to its first assignment that is wrong.
An assignment stands on one line, or on several if a quotation goes on. A value may stand in single
quotes, where every character stands for itself, or in double ones; elsewhere a backslash takes the
next character as it is, and a dollar sign puts in the value of a variable.
-/

namespace CoverageAccess

namespace CommandLine

/-- Variables with their values. -/
abbrev Environment := List (String × String)

/-- The value of a variable. A variable is kept as one text, with an equals sign after its name, and
is found by what this text begins with. So a name with an equals sign reaches into the value of a
variable with a shorter name. -/
def Environment.get? (e : Environment) (name : String) : Option String :=
  e.findSome? fun a =>
    (Text.dropStart? (name ++ "=").toList (a.1 ++ "=" ++ a.2).toList).map String.ofList

/-- How far a value has been read. -/
inductive ValueState where
  | bare
  | single
  | double
  /-- After a backslash; the flag says whether in double quotes. -/
  | escaped (inDouble : Bool)
  /-- In the name of a variable, which may be in braces. -/
  | name (inDouble braces : Bool) (s : List Char)
  /-- After the end of the value. -/
  | done
  deriving DecidableEq, Repr

namespace ValueState

def plain (inDouble : Bool) : ValueState :=
  if inDouble then double else bare

/-- The characters of a variable's value; nothing for a variable that is not there. -/
def valueOf (e : Environment) (reversedName : List Char) : List Char :=
  ((e.get? (String.ofList reversedName.reverse)).getD "").toList

def isGap (c : Char) : Bool :=
  c == ' ' || c == '\t'

/-- The characters that one more character adds to the value, and the state after it. -/
def feed (e : Environment) (c : Char) : ValueState → Option (List Char × ValueState)
  | bare =>
    if c = '$' then some ([], name false false [])
    else if c = '\'' then some ([], single)
    else if c = '"' then some ([], double)
    else if c = '\\' then some ([], escaped false)
    else if isGap c then some ([], done)
    else some ([c], bare)
  | single => if c = '\'' then some ([], bare) else some ([c], single)
  | double =>
    if c = '$' then some ([], name true false [])
    else if c = '"' then some ([], bare)
    else if c = '\\' then some ([], escaped true)
    else some ([c], double)
  | escaped inDouble =>
    if c = 'n' then some (['\n'], plain inDouble)
    else if "\\'\"$ ".toList.contains c then some ([c], plain inDouble)
    else none
  | name inDouble braces s =>
    if Text.isAlphanumeric c then some ([], name inDouble braces (c :: s))
    else if braces then
      if c = '\x7d' then some (valueOf e s, plain inDouble)
      else some ([], name inDouble braces (c :: s))
    else if c = '\x7b' ∧ s = [] then some ([], name inDouble true [])
    else if c = '$' then some (valueOf e s, name inDouble false [])
    else some (valueOf e s ++ [c], plain inDouble)
  | done => if isGap c then some ([], done) else none

def finish (e : Environment) : ValueState → Option (List Char)
  | bare | done | escaped false => some []
  | name false false s => some (valueOf e s)
  | _ => none

/-- The characters of a value. After its end a number sign begins a comment. -/
def read (e : Environment) : ValueState → List Char → Option (List Char)
  | q, [] => finish e q
  | q, c :: s =>
    if q = done ∧ c = '#' then some []
    else do
      let (added, q) ← feed e c q
      let rest ← read e q s
      return added ++ rest

end ValueState

def isNameChar (c : Char) : Bool :=
  c.isAlphanum || c == '_' || c == '.'

/-- The name at the beginning of a text, and what follows it after blanks. -/
def name? (s : List Char) : Option (String × List Char) :=
  match s with
  | [] => none
  | c :: _ =>
    if c.isAlpha || c == '_' then
      some (String.ofList (s.takeWhile isNameChar),
        (s.dropWhile isNameChar).dropWhile Text.isBlank)
    else none

/-- The assignment on a line: a name, and the text after the equals sign. The word `export` may
stand before it. -/
def assignment? (s : List Char) : Option (String × List Char) := do
  let (first, rest) ← name? s
  match rest with
  | '=' :: value => some (first, value)
  | _ =>
    if first = "export" then
      match ← name? rest with
      | (name, '=' :: value) => some (name, value)
      | _ => none
    else none

/-- The variable that a line assigns, if it assigns one; nothing at all if it is wrong. -/
def line? (e : Environment) (s : List Char) : Option (Option (String × String)) :=
  let s := Text.trimStart Text.isBlank s
  match s with
  | [] | '#' :: _ => some none
  | _ => do
    let (name, rest) ← assignment? s
    match Text.trimBy Text.isBlank rest with
    | [] | '#' :: _ => some (some (name, ""))
    | value =>
      let cs ← ValueState.read e .bare value
      return some (name, String.ofList cs)

/-- How the end of an assignment is looked for. -/
inductive LineState where
  | bare
  /-- After a blank, where a number sign begins a comment. -/
  | blank
  | escaped
  /-- In a quotation, which only its own quote ends; the flag says whether after a backslash. -/
  | quoted (quote : Char) (escaped : Bool)
  deriving DecidableEq, Repr

namespace LineState

/-- The state after a character that is no blank, outside of quotations. -/
def opened (c : Char) : LineState :=
  if c = '\\' then escaped else if c = '"' ∨ c = '\'' then quoted c false else bare

/-- The state after one more character. -/
def step (c : Char) : LineState → LineState
  | bare => if Text.isBlank c && c != '\n' && c != '\r' then blank else opened c
  | blank => opened c
  | escaped => bare
  | quoted q true => quoted q false
  | quoted q false =>
    if c = '\\' then quoted q true else if c = q then bare else quoted q false

/-- The part of a line before its comment, and the state at its end if it has no comment. -/
def scan : LineState → List Char → List Char × Option LineState
  | q, [] => ([], some q)
  | q, c :: s =>
    if q = blank ∧ c = '#' then ([], none)
    else
      let r := scan (q.step c) s
      (c :: r.1, r.2)

end LineState

/-- The assignments on some lines, the first of which has begun with `pending` on earlier lines,
without their comments. One that has no end is passed over, as is a line with nothing but a comment.
-/
def assignments (pending : List Char) (q : LineState) : List (List Char) → List (List Char)
  | [] => []
  | line :: rest =>
    if pending = [] ∧ (Text.trimStart Text.isBlank line).head? = some '#' then
      assignments [] .bare rest
    else
      match q.scan line with
      | (kept, none) | (kept, some .bare) => (pending ++ kept) :: assignments [] .bare rest
      | (kept, some q) => assignments (pending ++ kept) q rest

/-- The variables after some assignments, in order; nothing at all if the run cannot go on, which is
so if a value has a null character. -/
def withAssignments? (e : Environment) : List (List Char) → Option Environment
  | [] => some e
  | s :: r =>
    match line? e s with
    | none => some e
    | some none => withAssignments? e r
    | some (some (name, value)) =>
      if (e.get? name).isSome then withAssignments? e r
      else if Text.mentions '\x00' value then none
      else withAssignments? (e ++ [(name, value)]) r

/-- The lines of a file, each with its line feed, up to the first that is no text. -/
def textLines : List (List UInt8) → List (List Char)
  | [] => []
  | line :: rest =>
    match Utf8.decode? line with
    | some s => s.toList :: textLines rest
    | none => []

/-- The bytes of a file cut after each line feed. -/
def byteLines : List UInt8 → List (List UInt8)
  | [] => []
  | b :: s =>
    if b = 0x0A then [b] :: byteLines s
    else
      match byteLines s with
      | [] => [[b]]
      | w :: ws => (b :: w) :: ws

/-- Cutting a file loses none of its bytes. -/
theorem flatten_byteLines (s : List UInt8) : (byteLines s).flatten = s := by
  induction s with
  | nil => rfl
  | cons b s ih =>
    unfold byteLines
    split
    · simp [ih]
    · split
      · rename_i h
        rw [h] at ih
        simp [← ih]
      · rename_i w ws h
        rw [h] at ih
        simp [← ih]

def withoutOrderMark : List (List Char) → List (List Char)
  | ('\uFEFF' :: s) :: rest => s :: rest
  | lines => lines

/-- The variables together with those of a file of assignments. -/
def Environment.withFile? (e : Environment) (content : List UInt8) : Option Environment :=
  withAssignments? e (assignments [] .bare (withoutOrderMark (textLines (byteLines content))))

end CommandLine

end CoverageAccess
