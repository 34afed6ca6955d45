/-!
# Shortest decimals

A finite binary floating-point number is `m · 2 ^ q` with natural `m`. The decimals that read back
as this number fill an interval around it, half way to its two neighbours; the ends belong to it
exactly if `m` is even. `shortest m q` is the decimal with the fewest digits in that interval, and
of several the one nearest to the number; a tie goes to the greater.

All comparisons are between natural numbers: a decimal `d · 10 ^ k` and a binary `n · 2 ^ q` are
brought to the common unit `2 ^ q` or `10 ^ k` by cross-multiplication.
-/

namespace CoverageAccess

namespace Number

/-- A positive decimal: the digits `digits · 10 ^ exponent`. -/
structure Decimal where
  digits : Nat
  exponent : Int
  deriving DecidableEq, Repr

/-- The interval of reals that round to `m · 2 ^ q`, in units of `2 ^ (q - 2)`: the lower end is
nearer when `m` is the least significand of its exponent and a smaller exponent exists. -/
structure Interval where
  low : Nat
  middle : Nat
  high : Nat
  /-- The exponent of the unit. -/
  unit : Int
  /-- The ends belong to the interval. -/
  closed : Bool
  deriving DecidableEq, Repr

/-- The reals that round to `m · 2 ^ q` among numbers of 53 significant bits with exponents from
`-1074` on. -/
def Interval.around (m : Nat) (q : Int) : Interval :=
  { low := 4 * m - (if m = Nat.pow 2 52 ∧ -1074 < q then 1 else 2)
    middle := 4 * m
    high := 4 * m + 2
    unit := q - 2
    closed := m % 2 = 0 }

/-- Compares `a · 2 ^ p` with `d · 10 ^ k`. -/
def compareScaled (a : Nat) (p : Int) (d : Nat) (k : Int) : Ordering :=
  compare (a * Nat.pow 2 p.toNat * Nat.pow 10 (-k).toNat)
    (d * Nat.pow 10 k.toNat * Nat.pow 2 (-p).toNat)

/-- The decimal `d · 10 ^ k` lies in the interval. -/
def Interval.holds (i : Interval) (d : Nat) (k : Int) : Bool :=
  let low := compareScaled i.low i.unit d k
  let high := compareScaled i.high i.unit d k
  if i.closed then low != .gt && high != .lt else low == .lt && high == .gt

/-- The greatest `d` with `d · 10 ^ k ≤ a · 2 ^ p`. -/
def floorScaled (a : Nat) (p k : Int) : Nat :=
  (a * Nat.pow 2 p.toNat * Nat.pow 10 (-k).toNat) / (Nat.pow 10 k.toNat * Nat.pow 2 (-p).toNat)

/-- Of the two multiples of `10 ^ k` around the middle, the one in the interval and nearest to the
middle; of two equally near ones the greater. -/
def Interval.onGrid? (i : Interval) (k : Int) : Option Nat :=
  let d := floorScaled i.middle i.unit k
  match i.holds d k, i.holds (d + 1) k with
  | false, false => none
  | true, false => some d
  | false, true => some (d + 1)
  | true, true =>
    match compareScaled (2 * i.middle) i.unit (2 * d + 1) k with
    | .lt => some d
    | _ => some (d + 1)

/-- The number of digits of the integer part of `a · 2 ^ p` when that is at least one, and minus
the number of zeros after the point otherwise: the least `k` with `a · 2 ^ p < 10 ^ k`. The search
starts from an estimate that is too small by a few places at most. -/
def magnitude (a : Nat) (p : Int) : Int :=
  let estimate := (((Nat.log2 a : Int) + p) * 30103).fdiv 100000 - 1
  (List.range 4).foldl
    (fun k _ => if compareScaled a p 1 k == .lt then k else k + 1) estimate

def Decimal.reduce (d : Decimal) : Decimal :=
  let rec go : Nat → Nat → Int → Decimal
    | 0, n, k => ⟨n, k⟩
    | fuel + 1, n, k => if n % 10 = 0 then go fuel (n / 10) (k + 1) else ⟨n, k⟩
  if d.digits = 0 then d else go (Nat.log2 d.digits + 1) d.digits d.exponent

/-- The shortest decimal of `m · 2 ^ q`. Seventeen digits always suffice. -/
def shortest (m : Nat) (q : Int) : Decimal :=
  let i := Interval.around m q
  let top := magnitude i.middle i.unit
  let found := (List.range 17).findSome? fun (n : Nat) =>
    let k := top - (n + 1)
    (i.onGrid? k).map fun d => (⟨d, k⟩ : Decimal)
  (found.getD ⟨0, 0⟩).reduce

end Number

end CoverageAccess
