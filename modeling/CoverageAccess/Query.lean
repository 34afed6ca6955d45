import CoverageAccess.Fault
import CoverageAccess.Text.Percent
import CoverageAccess.Text.Split
/-!
# Query parameters

A `Query` holds the parameters of a query string in order. Keys are compared without regard to the
case of ASCII letters, so they are kept small. A key may stand several times: `get?` answers its
first value and `getAll` all of them.
-/

namespace CoverageAccess

/-- Decoded parameters, in order, with small keys. -/
structure Query where
  entries : List (String × String)
  deriving DecidableEq, Repr

namespace Query

/-- The fault of a part that is not UTF-8 when it has been decoded. -/
def undecodable (part : List Char) : Fault :=
  .invalid "query" s!"'{String.ofList part}' is not valid UTF-8"

/-- A part of a query string, decoded. A plus stands for a space. -/
def decodePart (part : List Char) : Except Fault String :=
  match Percent.decode? (part.map fun c => if c = '+' then ' ' else c) with
  | some s => .ok s
  | none => .error (undecodable part)

/-- A parameter: a key and, after an equals sign, a value. -/
def decodeEntry (s : List Char) : Except Fault (String × String) := do
  let (key, value) := (Text.cut? (· == '=') s).getD (s, [])
  let key ← decodePart key
  let value ← decodePart value
  return (Text.lower key, value)

/-- The parameters of a list of undecoded ones. -/
def decodeEntries : List (List Char) → Except Fault (List (String × String))
  | [] => .ok []
  | s :: r => do
    let e ← decodeEntry s
    let es ← decodeEntries r
    return e :: es

/-- The parameters of a query string, which may begin with a question mark. Ampersands divide them;
empty ones are passed over. -/
def parse (s : String) : Except Fault Query := do
  let s := match s.toList with
    | '?' :: r => r
    | r => r
  let entries ← decodeEntries ((Text.split (· == '&') s).filter fun e => !e.isEmpty)
  return ⟨entries⟩

def ofPairs (pairs : List (String × String)) : Query :=
  ⟨pairs.map fun e => (Text.lower e.1, e.2)⟩

/-- All values of a key, in order. -/
def getAll (q : Query) (key : String) : List String :=
  (q.entries.filter fun e => e.1 == Text.lower key).map Prod.snd

def get? (q : Query) (key : String) : Option String :=
  (q.entries.find? fun e => e.1 == Text.lower key).map Prod.snd

def has (q : Query) (key : String) : Bool :=
  (q.get? key).isSome

theorem get?_eq_head? (q : Query) (key : String) : q.get? key = (q.getAll key).head? := by
  simp only [get?, getAll, List.head?_map, List.head?_filter]

end Query

end CoverageAccess
