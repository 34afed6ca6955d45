import CoverageAccess.Number.Real
import CoverageAccess.Text.Hex
/-!
# Values of settings documents

A settings document holds a `Value`: scalars, lists, and maps with values as keys. A scalar without
quotes may be taken as text, as a number or as nothing; which of these it may be depends on the
`Reading`: in a loose reading every scalar is a text if a text is wanted, and an empty one is an
empty list or map; in a strict reading each such scalar has one meaning, and what looks like a
number, a truth value or nothing is not a text.
-/

namespace CoverageAccess

namespace Settings

/-- A value of a settings document. -/
inductive Value where
  /-- A scalar without quotes. -/
  | plain (s : String)
  /-- A scalar in quotes. -/
  | quoted (s : String)
  | list (items : List Value)
  | map (entries : List (Value × Value))
  deriving Inhabited

/-- How the kinds of scalars are told apart. -/
inductive Reading where
  | loose
  | strict
  deriving DecidableEq, Repr

/-- The scalars that stand for nothing. -/
def nulls : List String := ["", "~", "null", "Null", "NULL"]

def truths : List String := ["true", "True", "TRUE", "false", "False", "FALSE"]

/-- Two or more digits of which the first is a zero, with an optional sign. -/
def hasLeadingZero (s : List Char) : Bool :=
  match (Number.splitSign s).2 with
  | '0' :: c :: r => (c :: r).all Number.isDigit
  | _ => false

def digitIn? (base : Nat) (c : Char) : Option Nat :=
  (Hex.value? c).filter fun n => n < base

/-- The value of digits in a notation with the given base, after digits of value `n`. -/
def digitsIn? (base n : Nat) : List Char → Option Nat
  | [] => some n
  | c :: s => do digitsIn? base (base * n + (← digitIn? base c)) s

/-- A number in hexadecimal, octal or binary notation. -/
def based? : List Char → Option Nat
  | '0' :: c :: d :: s =>
    let base :=
      if c = 'x' then some 16 else if c = 'o' then some 8 else if c = 'b' then some 2 else none
    base.bind fun b => digitsIn? b 0 (d :: s)
  | _ => none

def digitsOf? (s : List Char) : Option Nat :=
  (based? s).or (if hasLeadingZero s then none else Number.natural? s)

/-- A natural number of 64 bits as a scalar. -/
def naturalOf? (s : List Char) : Option Nat :=
  (digitsOf? (Number.dropPlus s)).filter fun n => n ≤ Number.maxSize

/-- A floating-point number as a scalar; the infinities and the NaN begin with a point. -/
def realOf? (s : String) : Option Float :=
  let unsigned := String.ofList (Number.dropPlus s.toList)
  if unsigned ∈ [".inf", ".Inf", ".INF"] then some (1 / 0)
  else if s ∈ ["-.inf", "-.Inf", "-.INF"] then some (-(1 / 0))
  else if s ∈ [".nan", ".NaN", ".NAN"] then some (0 / 0)
  else if Number.dropPlus s.toList ≠ s.toList ∧
      (Number.splitSign unsigned.toList).2 ≠ unsigned.toList then none
  else (Number.real? unsigned).filter Float.isFinite

/-- What a scalar without quotes means in a strict reading. -/
inductive Meaning where
  | nothing
  | truth
  /-- A natural number of 64 bits. -/
  | natural (n : Nat)
  /-- A minus and a natural number, together a number of 64 bits. -/
  | negative (n : Nat)
  /-- A whole number of more than 64 bits and at most 128. -/
  | wide
  | real (x : Float)
  | text

namespace Meaning

/-- The meaning of a natural number, if it has one. -/
def ofNatural? (n : Nat) : Option Meaning :=
  if n < Nat.pow 2 64 then some (natural n) else if n < Nat.pow 2 128 then some wide else none

/-- The meaning of a minus and a natural number, if they have one. -/
def ofNegative? (n : Nat) : Option Meaning :=
  if n ≤ Nat.pow 2 63 then some (negative n) else if n ≤ Nat.pow 2 127 then some wide else none

/-- The meaning of a whole number, if the scalar is one. -/
def ofWhole? : List Char → Option Meaning
  | '-' :: s => (digitsOf? s).bind ofNegative?
  | s => (digitsOf? (Number.dropPlus s)).bind ofNatural?

/-- The meaning of a scalar. -/
def of (s : String) : Meaning :=
  if s ∈ nulls then nothing
  else if s ∈ truths then truth
  else
    match ofWhole? s.toList with
    | some m => m
    | none =>
      if hasLeadingZero s.toList then text
      else
        match realOf? s with
        | some x => real x
        | none => text

/-- The scalar is nothing but text. -/
def isText : Meaning → Bool
  | text => true
  | _ => false

def isWide : Meaning → Bool
  | wide => true
  | _ => false

/-- The natural number of 64 bits. -/
def natural? : Meaning → Option Nat
  | natural n => some n
  | negative 0 => some 0
  | _ => none

def real? : Meaning → Option Float
  | natural n => some (Number.ofSize n)
  | negative n => some (if n = 0 then 0 else -Number.ofSize n)
  | real x => some x
  | _ => none

end Meaning

namespace Value

/-- The value stands for nothing. -/
def isNull : Value → Bool
  | plain s => s ∈ nulls
  | _ => false

def text? (r : Reading) : Value → Option String
  | quoted s => some s
  | plain s => if r = .loose ∨ (Meaning.of s).isText then some s else none
  | _ => none

/-- The natural number of 64 bits that a scalar stands for. -/
def natural? (r : Reading) : Value → Option Nat
  | plain s => if r = .strict then (Meaning.of s).natural? else naturalOf? s.toList
  | _ => none

def position? : Value → Option Nat
  | plain s => naturalOf? s.toList
  | _ => none

def real? (r : Reading) : Value → Option Float
  | plain s => if r = .strict then (Meaning.of s).real? else realOf? s
  | _ => none

/-- The items of a list, read one by one. -/
def list? (r : Reading) (read : Value → Option α) : Value → Option (List α)
  | list items => items.mapM read
  | plain s => if r = .loose ∧ s = "" then some [] else none
  | _ => none

/-- The name that a key gives. In a strict reading it may give the place of the name among some
names instead; a place without a name gives the empty name. -/
def name? (r : Reading) (names : List String) (k : Value) : Option String :=
  match k.text? r, k.position? with
  | some s, _ => some s
  | none, some n => if r = .strict then some (names.getD n "") else none
  | none, none => none

def named? (r : Reading) (names : List String) (entries : List (Value × Value)) :
    Option (List (String × Value)) :=
  entries.mapM fun e => (e.1.name? r names).map fun s => (s, e.2)

/-- The entries of a record that belong to the given fields. Other keys are passed over; a field
must not be there twice. -/
def fields? (fields : List String) (entries : List (String × Value)) :
    Option (List (String × Value)) :=
  let known := entries.filter fun e => e.1 ∈ fields
  if (known.map Prod.fst).Nodup then some known else none

/-- The entries of a record with the given fields. In a strict reading a list gives the values of
the first fields. -/
def record? (r : Reading) (fields : List String) : Value → Option (List (String × Value))
  | map entries => (named? r fields entries).bind (fields? fields)
  | list items =>
    if r = .strict ∧ items.length ≤ fields.length then some (fields.zip items) else none
  | plain s => if r = .loose ∧ s = "" then some [] else none
  | quoted _ => none

mutual

/-- The value can be kept: it holds no number that is too wide, and lists and maps are nested at
most so many times. -/
def isKept : Nat → Value → Bool
  | _, plain s => !(Meaning.of s).isWide
  | _, quoted _ => true
  | 0, list _ | 0, map _ => false
  | n + 1, list items => areKept n items
  | n + 1, map entries => entriesAreKept n entries

def areKept : Nat → List Value → Bool
  | _, [] => true
  | n, v :: vs => v.isKept n && areKept n vs

def entriesAreKept : Nat → List (Value × Value) → Bool
  | _, [] => true
  | n, (k, v) :: es => k.isKept n && v.isKept n && entriesAreKept n es

end

end Value

def required (entries : List (String × Value)) (field : String) (read : Value → Option α) :
    Option α :=
  (entries.find? fun e => e.1 == field).bind fun e => read e.2

/-- The value of a field that may be absent, for which `absent` stands then. -/
def defaulted (entries : List (String × Value)) (field : String) (absent : α)
    (read : Value → Option α) : Option α :=
  match entries.find? fun e => e.1 == field with
  | some e => read e.2
  | none => some absent

/-- The value of a field that may be absent or nothing. -/
def optional (entries : List (String × Value)) (field : String) (read : Value → Option α) :
    Option (Option α) :=
  defaulted entries field none fun v => if v.isNull then some none else (read v).map some

end Settings

end CoverageAccess
