/-!
# Decimal integers

`natural?` reads digits; `unsigned? bound` and `signed? bits` read the integers of a fixed range
with an optional sign. All of them know ASCII digits only, allow leading zeros, and refuse blanks.
-/

namespace CoverageAccess

namespace Number

def digit? (c : Char) : Option Nat :=
  if '0' ≤ c ∧ c ≤ '9' then some (c.toNat - '0'.toNat) else none

def isDigit (c : Char) : Bool :=
  (digit? c).isSome

/-- The value of the digits `s` after digits of value `n`. -/
def digitsFrom? (n : Nat) : List Char → Option Nat
  | [] => some n
  | c :: s => do digitsFrom? (10 * n + (← digit? c)) s

/-- The value of a list of digits, which must not be empty. -/
def natural? : List Char → Option Nat
  | [] => none
  | s => digitsFrom? 0 s

def digits (n : Nat) : List Char :=
  Nat.toDigits 10 n

def ofNatural (n : Nat) : String :=
  String.ofList (digits n)

/-- The decimal text of an integer; a minus stands before negative ones. -/
def ofInteger (n : Int) : String :=
  match n with
  | .ofNat n => ofNatural n
  | .negSucc n => "-" ++ ofNatural (n + 1)

/-- The digits of `n`, filled up with leading zeros to `width`. -/
def padded (width n : Nat) : List Char :=
  let s := digits n
  List.replicate (width - s.length) '0' ++ s

/-- The text after one leading plus, if there is one. -/
def dropPlus : List Char → List Char
  | '+' :: s => s
  | s => s

/-- Whether the text begins with a minus, and what follows the sign, if there is one. -/
def splitSign : List Char → Bool × List Char
  | '-' :: s => (true, s)
  | s => (false, dropPlus s)

/-- A natural number up to `bound`, with an optional plus before its digits. -/
def unsigned? (bound : Nat) (s : List Char) : Option Nat :=
  (natural? (dropPlus s)).filter fun n => n ≤ bound

/-- An integer of the given number of bits in two's complement, with an optional sign. -/
def signed? (bits : Nat) (s : List Char) : Option Int :=
  let (negative, rest) := splitSign s
  ((natural? rest).map fun n => if negative then -(n : Int) else n).filter fun n =>
    -(Nat.pow 2 (bits - 1) : Int) ≤ n && n < (Nat.pow 2 (bits - 1) : Int)

/-- The greatest number of 64 bits. -/
def maxSize : Nat := Nat.pow 2 64 - 1

theorem unsigned?_le {bound n : Nat} {s : List Char} (h : unsigned? bound s = some n) :
    n ≤ bound := by
  simpa using (Option.filter_eq_some_iff.1 h).2

end Number

end CoverageAccess
