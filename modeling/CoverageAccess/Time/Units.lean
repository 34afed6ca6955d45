import CoverageAccess.Number.Real
import CoverageAccess.Time.Position
/-!
# Time coordinates

The values of a time coordinate count units from an epoch, and both stand in its units text, for
instance `"hours since 1900-01-01 00:00:0.0"`. Every text has an epoch: when none can be read it is
the beginning of 1970. A unit that is not known counts milliseconds.
-/

namespace CoverageAccess

namespace Time

/-- What follows the last occurrence of `word`. -/
def afterLast? (word : List Char) : List Char → Option (List Char)
  | [] => Text.dropStart? word []
  | c :: s => (afterLast? word s).or (Text.dropStart? word (c :: s))

/-- The epoch after `since`: a complete date and, after a blank or a `T`, a time of day. A time of
day that cannot be read counts as midnight. -/
def epochOf? (s : List Char) : Option Instant := do
  let s := withoutZone s
  let (datePart, clockPart) := match Text.cut? (fun c => c == ' ' || c == 'T') s with
    | some (d, c) => (d, some (Text.trimBy Text.isBlank c))
    | none => (s, none)
  let fields := Text.split (· == '-') datePart
  if fields.length = 3 then
    let d ← date? fields
    let c := clockPart.bind fun c =>
      let fields := Text.split (· == ':') c
      if c = [] ∨ 3 < fields.length then none else clock? fields
    Instant.ofDateAndClock? d (c.getD .midnight)
  else none

def epoch (units : String) : Instant :=
  ((afterLast? "since".toList units.toList).bind epochOf?).getD .origin

/-- The milliseconds in the unit that a units text begins with. -/
def unitMillis (units : String) : Int :=
  let s := String.ofList (units.toList.dropWhile fun c => c == ' ' || c == '\t')
  if Text.startsWith "second" s then 1000
  else if Text.startsWith "minute" s then 60000
  else if Text.startsWith "hour" s then 3600000
  else if Text.startsWith "day" s then 86400000
  else 1

/-- The whole units from the epoch to an instant, rounded towards zero. -/
def countUnits (i : Instant) (units : String) : Int :=
  ((i.nanos - (epoch units).nanos).tdiv milli).tdiv (unitMillis units)

def formatUnits (i : Instant) (units : String) : String :=
  Number.ofInteger (countUnits i units)

/-- The instant of a coordinate value, if it is within the bounds. Parts of a millisecond are
dropped. -/
def instantOfUnits? (value : Float) (units : String) : Option Instant :=
  let millis := value * Number.ofSize (unitMillis units).toNat
  if !millis.isFinite || 9223372036854775808.0 ≤ millis.abs then none
  else (epoch units).addMillis? (Number.truncate millis)

end Time

end CoverageAccess
