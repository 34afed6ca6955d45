import CoverageAccess.Number.Integer
import CoverageAccess.Time.Calendar
/-!
# Instants

An `Instant` is a count of nanoseconds from the beginning of 1970 in Coordinated Universal Time, in
the years from -262143 to 262142. The bounds are part of the type, so that every instant has a date
that can be written. `gml` is the time position that requests and envelopes use, to the millisecond;
`described` is the exact form.
-/

namespace CoverageAccess

namespace Time

def milli : Int := 1000000

def second : Int := 1000000000

def day : Int := 86400 * second

/-- The first nanosecond of the year -262143. -/
def earliest : Int := (yearStart (-262143) - yearStart 1970) * day

/-- The last nanosecond of the year 262142. -/
def latest : Int := (yearStart 262143 - yearStart 1970) * day - 1

/-- A point in time, in nanoseconds from the beginning of 1970. -/
structure Instant where
  nanos : Int
  earliest_le : earliest ≤ nanos
  le_latest : nanos ≤ latest
  deriving DecidableEq, Repr

/-- A time of day. -/
structure Clock where
  hour : Nat
  minute : Nat
  second : Nat
  nanos : Nat
  deriving DecidableEq, Repr

namespace Clock

def midnight : Clock := ⟨0, 0, 0, 0⟩

def isValid (c : Clock) : Bool :=
  c.hour < 24 && c.minute < 60 && c.second < 60 && c.nanos < 1000000000

def sinceMidnight (c : Clock) : Nat :=
  ((c.hour * 60 + c.minute) * 60 + c.second) * 1000000000 + c.nanos

/-- The time of day that is `n` nanoseconds after midnight. -/
def ofNanos (n : Nat) : Clock :=
  let seconds := n / 1000000000
  ⟨seconds / 3600, seconds / 60 % 60, seconds % 60, n % 1000000000⟩

end Clock

namespace Instant

/-- The instant of a count of nanoseconds, if it is within the bounds. -/
def ofNanos? (n : Int) : Option Instant :=
  if h : earliest ≤ n ∧ n ≤ latest then some ⟨n, h.1, h.2⟩ else none

/-- The beginning of 1970. -/
def origin : Instant := ⟨0, by decide, by decide⟩

/-- The instant of a date and a time of day, if both exist and the year is within the bounds. -/
def ofDateAndClock? (d : Date) (c : Clock) : Option Instant :=
  if d.isValid && c.isValid then ofNanos? (d.dayNumber * day + c.sinceMidnight) else none

def date (i : Instant) : Date :=
  Date.ofDayNumber (i.nanos / day)

def clock (i : Instant) : Clock :=
  Clock.ofNanos (i.nanos % day).toNat

/-- The whole seconds from the beginning of 1970, rounded down. -/
def seconds (i : Instant) : Int :=
  i.nanos / second

def subseconds (i : Instant) : Nat :=
  (i.nanos % second).toNat

def le (i j : Instant) : Bool :=
  i.nanos ≤ j.nanos

def lt (i j : Instant) : Bool :=
  i.nanos < j.nanos

def earlier (i j : Instant) : Instant :=
  if j.lt i then j else i

def later (i j : Instant) : Instant :=
  if i.lt j then j else i

def addMillis? (i : Instant) (millis : Int) : Option Instant :=
  ofNanos? (i.nanos + millis * milli)

/-- A year, with four digits at least; outside the years 0 to 9999 it has a sign. -/
def yearChars (year : Int) : List Char :=
  let size := Number.padded 4 year.natAbs
  if year < 0 then '-' :: size else if 9999 < year then '+' :: size else size

def wholeChars (i : Instant) : List Char :=
  let two := Number.padded 2
  yearChars i.date.year ++ '-' :: two i.date.month ++ '-' :: two i.date.day ++
    'T' :: two i.clock.hour ++ ':' :: two i.clock.minute ++ ':' :: two i.clock.second

/-- The time position, with three places after the second. -/
def gml (i : Instant) : String :=
  String.ofList (i.wholeChars ++ '.' :: Number.padded 3 (i.subseconds / 1000000) ++ ['Z'])

/-- The exact form, with as many groups of three places after the second as are needed. -/
def described (i : Instant) : String :=
  let n := i.subseconds
  let places :=
    if n = 0 then []
    else if n % 1000000 = 0 then '.' :: Number.padded 3 (n / 1000000)
    else if n % 1000 = 0 then '.' :: Number.padded 6 (n / 1000)
    else '.' :: Number.padded 9 n
  String.ofList (i.wholeChars ++ places ++ ['Z'])

variable {i j : Instant}

theorem eq_of_nanos (h : i.nanos = j.nanos) : i = j := by
  cases i
  cases j
  cases h
  rfl

theorem le_iff : i.le j = true ↔ i.nanos ≤ j.nanos :=
  decide_eq_true_iff

theorem lt_iff : i.lt j = true ↔ i.nanos < j.nanos :=
  decide_eq_true_iff

theorem earlier_eq_or (i j : Instant) : i.earlier j = i ∨ i.earlier j = j := by
  unfold earlier
  split
  · exact .inr rfl
  · exact .inl rfl

theorem later_eq_or (i j : Instant) : i.later j = i ∨ i.later j = j := by
  unfold later
  split
  · exact .inr rfl
  · exact .inl rfl

theorem earlier_le (i j : Instant) :
    (i.earlier j).nanos ≤ i.nanos ∧ (i.earlier j).nanos ≤ j.nanos := by
  unfold earlier
  split
  next h =>
    rw [lt_iff] at h
    omega
  next h =>
    rw [lt_iff] at h
    omega

theorem le_later (i j : Instant) :
    i.nanos ≤ (i.later j).nanos ∧ j.nanos ≤ (i.later j).nanos := by
  unfold later
  split
  next h =>
    rw [lt_iff] at h
    omega
  next h =>
    rw [lt_iff] at h
    omega

theorem ofNanos?_nanos (i : Instant) : ofNanos? i.nanos = some i := by
  simp [ofNanos?, i.earliest_le, i.le_latest]

theorem ofNanos?_eq_some_iff {n : Int} : ofNanos? n = some i ↔ i.nanos = n := by
  constructor
  · intro h
    unfold ofNanos? at h
    split at h
    · cases h
      rfl
    · cases h
  · rintro rfl
    exact ofNanos?_nanos i

end Instant

end Time

end CoverageAccess
