import CoverageAccess.Fault
import CoverageAccess.Text.Split
import CoverageAccess.Time.Instant
/-!
# Time positions

A time position is a date of one to three fields and, when all three are there, a time of day of one
to three fields after a `T`. Missing fields stand for the beginning of the interval that the
position names. A zone name at the end and a numeric offset are passed over: every position is read
in Coordinated Universal Time.
-/

namespace CoverageAccess

namespace Time

/-- The zone names that may end a time position, in the order in which they are looked for. -/
def zoneNames : List (List Char) :=
  ["UTC".toList, "GMT".toList, "UT".toList, "Z".toList, "z".toList]

/-- The text without blanks around it and without a zone name at its end. -/
def withoutZone (s : List Char) : List Char :=
  let s := Text.trimBy Text.isBlank s
  match zoneNames.findSome? fun z => Text.dropTail? z s with
  | some rest => Text.trimEnd Text.isBlank rest
  | none => s

/-- A field that holds an unsigned number of 32 bits, with blanks around it. -/
def fieldNumber? (s : List Char) : Option Nat :=
  Number.unsigned? (Nat.pow 2 32 - 1) (Text.trimBy Text.isBlank s)

/-- The number in a field, or `absent` when there is no field. -/
def fieldOr (absent : Nat) : Option (List Char) → Option Nat
  | none => some absent
  | some s => fieldNumber? s

/-- The date of a list of fields: the year, and the month and the day if they are there. -/
def date? (fields : List (List Char)) : Option Date := do
  let year ← Number.signed? 32 (Text.trimBy Text.isBlank (← fields[0]?))
  let month ← fieldOr 1 fields[1]?
  let day ← fieldOr 1 fields[2]?
  let d : Date := ⟨year, month, day⟩
  if d.isValid ∧ -262143 ≤ year ∧ year ≤ 262142 then some d else none

/-- Seconds and nanoseconds. Of the places after the point the first nine count. -/
def secondAndNanos? (s : List Char) : Option (Nat × Nat) := do
  let (whole, places) := (Text.cut? (· == '.') s).getD (s, [])
  let second ← Number.unsigned? (Nat.pow 2 32 - 1) whole
  if places.all Number.isDigit then
    let nanos ← Number.digitsFrom? 0 ((places ++ List.replicate 9 '0').take 9)
    return (second, nanos)
  else none

/-- The time of day of a list of fields: the hour, and the minute and the second if they are
there. -/
def clock? (fields : List (List Char)) : Option Clock := do
  let hour ← fieldNumber? (← fields[0]?)
  let minute ← fieldOr 0 fields[1]?
  let (second, nanos) ← match fields[2]? with
    | some s => secondAndNanos? (Text.trimBy Text.isBlank s)
    | none => some (0, 0)
  let c : Clock := ⟨hour, minute, second, nanos⟩
  if c.isValid then some c else none

/-- Why a text is no time position. -/
inductive Unreadable where
  | empty
  | manyDateFields
  | incompleteDate
  | date
  | manyClockFields
  | clock
  deriving DecidableEq, Repr

/-- The wording of why a text is no time position. -/
def Unreadable.text : Unreadable → String
  | .empty => "empty time position"
  | .manyDateFields => "too many date fields"
  | .incompleteDate => "a time of day requires a complete date"
  | .date => "bad date"
  | .manyClockFields => "too many time fields"
  | .clock => "bad time of day"

def Unreadable.fault (position : String) (cause : Unreadable) : Fault :=
  .invalid "TemporalSubset" s!"Unable to parse time position '{position}': {cause.text}"

/-- The time of day after the `T`; a numeric offset ends it. -/
def clockOf (s : List Char) : Except Unreadable Clock :=
  let s := match Text.cut? (fun c => c == '+' || c == '-') s with
    | some (before, _) => before
    | none => s
  let fields := Text.split (· == ':') s
  if 3 < fields.length then .error .manyClockFields
  else
    match clock? fields with
    | some c => .ok c
    | none => .error .clock

/-- Reads a time position from a list of characters. -/
def positionOf (s : List Char) : Except Unreadable Instant :=
  let s := withoutZone s
  if s = [] then .error .empty
  else
    let (datePart, clockPart) := match Text.cut? (· == 'T') s with
      | some (d, c) => (d, some c)
      | none => (s, none)
    let fields := Text.split (· == '-') datePart
    if 3 < fields.length then .error .manyDateFields
    else if clockPart.isSome ∧ fields.length ≠ 3 then .error .incompleteDate
    else
      match date? fields with
      | none => .error .date
      | some d => do
        let c ← match clockPart with
          | some c => clockOf c
          | none => .ok .midnight
        match Instant.ofDateAndClock? d c with
        | some i => .ok i
        | none => .error .date

def parsePosition (s : String) : Except Fault Instant :=
  (positionOf s.toList).mapError (Unreadable.fault s)

end Time

end CoverageAccess
