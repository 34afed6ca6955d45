import CoverageAccess.Number.Integer
import CoverageAccess.Number.Shortest
import CoverageAccess.Text.Split
/-!
# Floating-point numbers as text

`real?` reads a number: an optional sign, digits with an optional point and at least one digit, an
optional exponent; or an infinity or a NaN in any case. Blanks, underscores and other digits than
the ASCII ones are refused. The value is the nearest number of 64 bits; what is too great is an
infinity.

`plain` writes a number with its shortest digits and never with an exponent, so that whole numbers
have no point. `described` writes at least one place after the point, and an exponent for numbers
below `10 ^ -4` or from `10 ^ 16` on.
-/

namespace CoverageAccess

namespace Number

/-- The digits at the beginning of a text, and the rest. -/
def spanDigits (s : List Char) : List Char × List Char :=
  (s.takeWhile isDigit, s.dropWhile isDigit)

/-- The exponent that `e` or `E` introduces: zero for an empty text. -/
def exponent? : List Char → Option Int
  | [] => some 0
  | c :: s =>
    if c == 'e' || c == 'E' then
      let (negative, rest) := splitSign s
      (natural? rest).map fun n => if negative then -(n : Int) else n
    else none

/-- The number `n · 10 ^ k`, rounded to the nearest number of 64 bits. -/
def ofScaled (n : Nat) (k : Int) : Float :=
  match k with
  | .ofNat k => Float.ofScientific n false k
  | .negSucc k => Float.ofScientific n true (k + 1)

/-- A finite number without its sign. -/
def magnitude? (s : List Char) : Option Float := do
  let (whole, rest) := spanDigits s
  let (places, rest) := match rest with
    | '.' :: r => spanDigits r
    | _ => ([], rest)
  let n ← natural? (whole ++ places)
  let k ← exponent? rest
  return ofScaled n (k - places.length)

/-- The words for what is no finite number. -/
def special? (s : List Char) : Option Float :=
  match Text.lower (String.ofList s) with
  | "inf" | "infinity" => some (1 / 0)
  | "nan" => some (0 / 0)
  | _ => none

def realOf? (s : List Char) : Option Float :=
  let (negative, rest) := splitSign s
  ((magnitude? rest).or (special? rest)).map fun x => if negative then -x else x

def real? (s : String) : Option Float :=
  realOf? s.toList

def isNegative (x : Float) : Bool :=
  x.toBits.toNat / Nat.pow 2 63 = 1

/-- The significand and exponent of a finite number: it is `m · 2 ^ q` up to its sign. -/
def parts (x : Float) : Nat × Int :=
  let bits : Nat := x.toBits.toNat
  let fraction : Nat := bits % Nat.pow 2 52
  let exponent : Nat := bits / Nat.pow 2 52 % 2048
  if exponent = 0 then (fraction, -1074) else (Nat.pow 2 52 + fraction, exponent - 1075)

/-- Digits with a point at the given place: `point` digits stand before it. Zeros fill the gap
between point and digits on either side. -/
def positional (digits : List Char) (point : Int) : List Char :=
  if point ≤ 0 then "0.".toList ++ List.replicate (-point).toNat '0' ++ digits
  else if digits.length ≤ point then
    digits ++ List.replicate (point.toNat - digits.length) '0'
  else digits.take point.toNat ++ '.' :: digits.drop point.toNat

/-- The text of a finite number that is not zero, given the text of its size. -/
def written (zero : String) (size : List Char → Int → List Char) (x : Float) : String :=
  if x.isNaN then "NaN"
  else
    let sign := if isNegative x then "-" else ""
    if x.isInf then sign ++ "inf"
    else
      let (m, q) := parts x
      if m = 0 then sign ++ zero
      else
        let d := shortest m q
        let ds := digits d.digits
        sign ++ String.ofList (size ds (ds.length + d.exponent))

def plain (x : Float) : String :=
  written "0" positional x

/-- Digits as they are written in descriptions. -/
def describedSize (digits : List Char) (point : Int) : List Char :=
  if -4 < point ∧ point ≤ 16 then
    let s := positional digits point
    if s.contains '.' then s else s ++ ".0".toList
  else
    let body := match digits with
      | [] => []
      | [d] => [d]
      | d :: r => d :: '.' :: r
    body ++ 'e' :: (ofInteger (point - 1)).toList

def described (x : Float) : String :=
  written "0.0" describedSize x

def truncate (x : Float) : Int :=
  let (m, q) := parts x
  let size : Nat := m * Nat.pow 2 q.toNat / Nat.pow 2 (-q).toNat
  if isNegative x then -(size : Int) else size

/-- A number as a size: the integer part, brought into the range of 64 bits; zero for a NaN. -/
def toSize (x : Float) : Nat :=
  if x.isNaN || isNegative x then 0
  else if x.isInf then maxSize
  else min (truncate x).toNat maxSize

def ofSize (n : Nat) : Float :=
  ofScaled n 0

/-- The lesser of two numbers; a NaN is passed over. -/
def lesser (a b : Float) : Float :=
  if a.isNaN then b else if b.isNaN then a else if b < a then b else a

/-- The greater of two numbers; a NaN is passed over. -/
def greater (a b : Float) : Float :=
  if a.isNaN then b else if b.isNaN then a else if a < b then b else a

end Number

end CoverageAccess
