import CoverageAccess.Proofs.Box.Constructed
import CoverageAccess.Proofs.Dataset.Grid
/-!
# The extent of a document

Where the bounds of a derived box and its period come from, said of the document and the templates
alone. Each bound has its own source (`IsBound`): the attribute of the document that speaks of the role
comes before the template as soon as it holds a number. A period has one source for both ends: the
range of dates if the document gives both dates, readable or not (`IsRangePeriod`), and otherwise the
template of the first time axis (`IsTemplatePeriod`). A derived coverage has exactly the box and the
period that result from these rules (`derive_extent`).
-/

namespace CoverageAccess

namespace Time

open Instant Number

/-- The milliseconds that a coordinate value amounts to. -/
def millisOf (value : Float) (units : String) : Float :=
  value * ofSize (unitMillis units).toNat

/-- The value counts the units from their epoch to the instant, parts of a millisecond not counted, and
its milliseconds are a number of 64 bits. -/
structure CountsTo (value : Float) (units : String) (i : Instant) : Prop where
  isFinite : (millisOf value units).isFinite = true
  abs_lt : ¬9223372036854775808.0 ≤ (millisOf value units).abs
  nanos_eq : i.nanos = (epoch units).nanos + truncate (millisOf value units) * milli

theorem instantOfUnits?_eq_some_iff {value : Float} {units : String} {i : Instant} :
    instantOfUnits? value units = some i ↔ CountsTo value units i := by
  rw [instantOfUnits?, ← millisOf]
  split
  next h =>
    constructor
    · intro hi
      cases hi
    · rintro ⟨hfinite, hsmall, -⟩
      simp [hfinite, hsmall] at h
  next h =>
    obtain ⟨hfinite, hsmall⟩ : (millisOf value units).isFinite = true ∧
        ¬9223372036854775808.0 ≤ (millisOf value units).abs := by simpa using h
    rw [addMillis?, ofNanos?_eq_some_iff]
    exact ⟨fun hi => ⟨hfinite, hsmall, hi⟩, fun hi => hi.nanos_eq⟩

end Time

namespace Dataset

open Markup Time

/-- The attribute with the lower bound of the axes of a role. -/
def lowerAttribute? : Role → Option String
  | .latitude => some "SouthernmostLatitude"
  | .longitude => some "WesternmostLongitude"
  | .time => none

/-- The attribute with the upper bound of the axes of a role. -/
def upperAttribute? : Role → Option String
  | .latitude => some "NorthernmostLatitude"
  | .longitude => some "EasternmostLongitude"
  | .time => none

/-- The document gives a number to the attribute. -/
def GivesNumber (root : Element) (name : String) (x : Float) : Prop :=
  ∃ text, given? root name = some text ∧ Number.real? (Text.trim text) = some x

/-- The bound is the number that the attribute gives, if there is such an attribute and it gives one,
and otherwise that of the template. -/
inductive IsBound (root : Element) (named : Option String) (template : Option Float) (x : Float) :
    Prop
  | given {name : String} (hname : named = some name) (hx : GivesNumber root name x)
  | template (hnone : ∀ name, named = some name → ∀ y, ¬GivesNumber root name y)
      (hx : template = some x)

/-- The axis of a box is that of an axis of the grid whose bounds are known. -/
structure IsBoxAxis (root : Element) (a : GridAxis) (x : Axis) : Prop where
  role : a.coordinate.role ≠ some .time
  name : x.name = a.coordinate.name
  lower : IsBound root (a.coordinate.role.bind lowerAttribute?) a.template.lower x.lower
  upper : IsBound root (a.coordinate.role.bind upperAttribute?) a.template.upper x.upper

/-- The position that the attributes for a date and a time of day give. -/
inductive IsRangePosition (root : Element) (date time : String) : String → Prop
  | date {day : String} (hday : given? root date = some day) (htime : given? root time = none) :
    IsRangePosition root date time (Text.trim day)
  | dateAndTime {day hour : String} (hday : given? root date = some day)
      (hhour : given? root time = some hour) :
    IsRangePosition root date time (Text.trim day ++ "T" ++ Text.trim hour ++ "Z")

/-- The document gives both dates of its range. -/
def HasRange (root : Element) : Prop :=
  (given? root "RangeBeginningDate").isSome = true ∧ (given? root "RangeEndingDate").isSome = true

/-- The range of dates of the document can be read as the period. -/
structure IsRangePeriod (root : Element) (p : Period) : Prop where
  start : ∃ first, IsRangePosition root "RangeBeginningDate" "RangeBeginningTime" first ∧
    parsePosition first = .ok p.start
  finish : ∃ last, IsRangePosition root "RangeEndingDate" "RangeEndingTime" last ∧
    parsePosition last = .ok p.finish
  le : p.start.le p.finish = true

/-- The bounds of the template of the first time axis count to the ends of the period, in the units of
the axis. -/
def IsTemplatePeriod (axes : List GridAxis) (p : Period) : Prop :=
  ∃ a lower upper, IsFirst (fun a => a.coordinate.role = some .time) axes a ∧
    a.template.lower = some lower ∧ a.template.upper = some upper ∧
      CountsTo lower a.coordinate.units p.start ∧ CountsTo upper a.coordinate.units p.finish ∧
        p.start.le p.finish = true

variable {root : Element} {d : Dataset} {a : GridAxis} {x : Axis} {axes : List GridAxis} {p : Period}

section Bounds

theorem realAttribute?_eq_some_iff (hd : ofElement root = .ok d) {name : String} {y : Float} :
    d.realAttribute? name = some y ↔ GivesNumber root name y := by
  rw [realAttribute?, get?_attributes hd, Option.bind_eq_some_iff, GivesNumber]

theorem isBound_some_iff (hd : ofElement root = .ok d) {name : String} {template : Option Float}
    {y : Float} :
    (d.realAttribute? name).or template = some y ↔ IsBound root (some name) template y := by
  rw [Option.or_eq_some_iff, Option.eq_none_iff_forall_ne_some]
  simp only [realAttribute?_eq_some_iff hd, ne_eq]
  constructor
  · rintro (hy | ⟨hnone, hy⟩)
    · exact .given rfl hy
    · refine .template ?_ hy
      rintro _ ⟨⟩
      exact hnone
  · intro h
    cases h with
    | given hname hy =>
        cases hname
        exact .inl hy
    | template hnone hy => exact .inr ⟨hnone name rfl, hy⟩

theorem isBound_none_iff {template : Option Float} {y : Float} :
    template = some y ↔ IsBound root none template y := by
  refine ⟨fun hy => .template nofun hy, fun h => ?_⟩
  cases h with
  | given hname _ => cases hname
  | template _ hy => exact hy

/-- The attribute without a name, which an axis without a role is asked for, gives no bound. -/
theorem realAttribute?_or_eq_some_iff (hd : ofElement root = .ok d) (hnamed : given? root "" = none)
    {template : Option Float} {y : Float} :
    (d.realAttribute? "").or template = some y ↔ IsBound root none template y := by
  have hnone : d.realAttribute? "" = none := by
    rw [realAttribute?, get?_attributes hd, hnamed, Option.bind_none]
  rw [hnone, Option.none_or, isBound_none_iff]

theorem boxAxis?_eq_some_iff (hd : ofElement root = .ok d) (hnamed : given? root "" = none) :
    d.boxAxis? a = some x ↔ IsBoxAxis root a x := by
  have hbounds (low high : String) (hrole : boundAttributes a.coordinate.role = some (low, high)) :
      d.boxAxis? a = some x ↔ x.name = a.coordinate.name ∧
        (d.realAttribute? low).or a.template.lower = some x.lower ∧
          (d.realAttribute? high).or a.template.upper = some x.upper := by
    simp only [boxAxis?, hrole, Option.bind_eq_bind, Option.bind_some, Option.bind_eq_some_iff]
    constructor
    · rintro ⟨lower, hlower, upper, hupper, hx⟩
      cases hx
      exact ⟨rfl, hlower, hupper⟩
    · rintro ⟨hname, hlower, hupper⟩
      exact ⟨_, hlower, _, hupper, by rw [← hname]; rfl⟩
  have hparts : IsBoxAxis root a x ↔ a.coordinate.role ≠ some .time ∧ x.name = a.coordinate.name ∧
      IsBound root (a.coordinate.role.bind lowerAttribute?) a.template.lower x.lower ∧
        IsBound root (a.coordinate.role.bind upperAttribute?) a.template.upper x.upper :=
    ⟨fun h => ⟨h.role, h.name, h.lower, h.upper⟩, fun ⟨h, h', h'', h'''⟩ => ⟨h, h', h'', h'''⟩⟩
  rw [hparts]
  match hrole : a.coordinate.role with
  | none =>
      rw [hbounds "" "" (by rw [hrole]; rfl), realAttribute?_or_eq_some_iff hd hnamed,
        realAttribute?_or_eq_some_iff hd hnamed]
      simp
  | some .time =>
      have hnone : d.boxAxis? a = none := by
        rw [boxAxis?, hrole]
        rfl
      rw [hnone]
      simp
  | some .latitude =>
      rw [hbounds _ _ (by rw [hrole]; rfl), isBound_some_iff hd, isBound_some_iff hd]
      simp [lowerAttribute?, upperAttribute?]
  | some .longitude =>
      rw [hbounds _ _ (by rw [hrole]; rfl), isBound_some_iff hd, isBound_some_iff hd]
      simp [lowerAttribute?, upperAttribute?]

end Bounds

section Periods

theorem rangePosition?_eq_some_iff (hd : ofElement root = .ok d) {date time position : String} :
    d.rangePosition? date time = some position ↔ IsRangePosition root date time position := by
  rw [rangePosition?, get?_attributes hd, get?_attributes hd, Option.map_eq_some_iff]
  constructor
  · rintro ⟨day, hday, rfl⟩
    split
    next hour hhour => exact .dateAndTime hday hhour
    next hhour => exact .date hday hhour
  · intro h
    cases h with
    | date hday htime => exact ⟨_, hday, by rw [htime]⟩
    | dateAndTime hday hhour => exact ⟨_, hday, by rw [hhour]; rfl⟩

theorem templatePeriod?_eq_some_iff : templatePeriod? axes = some p ↔ IsTemplatePeriod axes p := by
  have htime (a : GridAxis) : a.coordinate.isTime = true ↔ a.coordinate.role = some .time := by
    simp [Coordinate.isTime]
  simp only [templatePeriod?, Option.bind_eq_bind, Option.bind_eq_some_iff, toOption_eq_some_iff,
    Period.make_eq_ok_iff, instantOfUnits?_eq_some_iff, find?_eq_some_iff_isFirst htime]
  constructor
  · rintro ⟨a, ha, lower, hlower, i, hi, upper, hupper, j, hj, hle, rfl⟩
    exact ⟨a, lower, upper, ha, hlower, hupper, hi, hj, hle⟩
  · rintro ⟨a, lower, upper, ha, hlower, hupper, hi, hj, hle⟩
    exact ⟨a, ha, lower, hlower, p.start, hi, upper, hupper, p.finish, hj, hle, rfl⟩

theorem exists_isRangePosition_iff {date : String} (time : String) :
    (∃ position, IsRangePosition root date time position) ↔ (given? root date).isSome = true := by
  rw [Option.isSome_iff_exists]
  constructor
  · rintro ⟨_, hposition⟩
    cases hposition with
    | date hday _ => exact ⟨_, hday⟩
    | dateAndTime hday _ => exact ⟨_, hday⟩
  · rintro ⟨day, hday⟩
    cases htime : given? root time with
    | none => exact ⟨_, .date hday htime⟩
    | some hour => exact ⟨_, .dateAndTime hday htime⟩

theorem IsRangePeriod.hasRange (h : IsRangePeriod root p) : HasRange root := by
  obtain ⟨first, hfirst, -⟩ := h.start
  obtain ⟨last, hlast, -⟩ := h.finish
  exact ⟨(exists_isRangePosition_iff _).1 ⟨first, hfirst⟩,
    (exists_isRangePosition_iff _).1 ⟨last, hlast⟩⟩

theorem rangePositions?_eq_some_iff (hd : ofElement root = .ok d) {first last : String} :
    d.rangePositions? = some (first, last) ↔
      IsRangePosition root "RangeBeginningDate" "RangeBeginningTime" first ∧
        IsRangePosition root "RangeEndingDate" "RangeEndingTime" last := by
  simp only [rangePositions?, Option.bind_eq_bind, Option.bind_eq_some_iff,
    rangePosition?_eq_some_iff hd]
  constructor
  · rintro ⟨first, hfirst, last, hlast, heq⟩
    cases heq
    exact ⟨hfirst, hlast⟩
  · rintro ⟨hfirst, hlast⟩
    exact ⟨first, hfirst, last, hlast, rfl⟩

theorem isSome_rangePositions?_iff (hd : ofElement root = .ok d) :
    d.rangePositions?.isSome = true ↔ HasRange root := by
  rw [Option.isSome_iff_exists, Prod.exists, HasRange,
    ← exists_isRangePosition_iff "RangeBeginningTime",
    ← exists_isRangePosition_iff "RangeEndingTime"]
  simp only [rangePositions?_eq_some_iff hd, exists_and_left, exists_and_right]

theorem periodBetween_eq_ok_iff {first last : String} : periodBetween first last = .ok p ↔
    parsePosition first = .ok p.start ∧ parsePosition last = .ok p.finish ∧
      p.start.le p.finish = true := by
  simp only [periodBetween, bind_eq_ok_iff, Period.make_eq_ok_iff]
  constructor
  · rintro ⟨i, hi, j, hj, hle, rfl⟩
    exact ⟨hi, hj, hle⟩
  · rintro ⟨hi, hj, hle⟩
    exact ⟨p.start, hi, p.finish, hj, hle, rfl⟩

theorem isRangePeriod_iff (hd : ofElement root = .ok d) : IsRangePeriod root p ↔
    ∃ first last, d.rangePositions? = some (first, last) ∧ periodBetween first last = .ok p := by
  simp only [rangePositions?_eq_some_iff hd, periodBetween_eq_ok_iff]
  constructor
  · rintro ⟨⟨first, hfirst, hstart⟩, ⟨last, hlast, hfinish⟩, hle⟩
    exact ⟨first, last, ⟨hfirst, hlast⟩, hstart, hfinish, hle⟩
  · rintro ⟨first, last, ⟨hfirst, hlast⟩, hstart, hfinish, hle⟩
    exact ⟨⟨first, hfirst, hstart⟩, ⟨last, hlast, hfinish⟩, hle⟩

theorem period?_eq_some_iff (hd : ofElement root = .ok d) : d.period? axes = some p ↔
    IsRangePeriod root p ∨ ¬HasRange root ∧ IsTemplatePeriod axes p := by
  rw [isRangePeriod_iff hd, ← isSome_rangePositions?_iff hd, period?]
  cases d.rangePositions? with
  | none => simp [templatePeriod?_eq_some_iff]
  | some positions =>
      obtain ⟨first, last⟩ := positions
      simp [toOption_eq_some_iff]

end Periods

/-- The box of a derived coverage has the period of its dataset. -/
theorem exists_period?_of_derive {s : Service} {id url : String} {c : Coverage} {b : Box}
    (h : s.derive root id url = .ok c) (hb : c.box = some b) :
    ∃ d axes, ofElement root = .ok d ∧ b.period = d.period? axes := by
  obtain ⟨d, hd, hc⟩ := Service.derive_eq_ok_iff.1 h
  obtain ⟨-, -, -, rfl⟩ := Service.describe_eq_ok_iff.1 hc
  obtain ⟨-, rfl⟩ := boxOver_eq_some_iff.1 hb
  exact ⟨d, _, hd, rfl⟩

/-- A derived box has an axis for every axis of the grid whose bounds are known, in order, and there is
a box exactly if there is such an axis. It has a period exactly if the range of dates of the document
can be read, or the document has no such range and the bounds of the first time axis can be counted. -/
theorem derive_extent {s : Service} {id url : String} {c : Coverage}
    (h : s.derive root id url = .ok c) (hnamed : given? root "" = none) :
    ∃ axes fields, IsGrid root s.templates axes fields ∧
      c.coordinates = axes.map GridAxis.coordinate ∧
      (c.box = none ↔ ∀ a ∈ axes, ∀ x, ¬IsBoxAxis root a x) ∧
      ∀ b, c.box = some b → Picks (IsBoxAxis root) axes b.axes ∧ b.crs = s.crs ∧
        ∀ p, b.period = some p ↔
          IsRangePeriod root p ∨ ¬HasRange root ∧ IsTemplatePeriod axes p := by
  obtain ⟨d, hd, hc⟩ := Service.derive_eq_ok_iff.1 h
  obtain ⟨-, -, -, rfl⟩ := Service.describe_eq_ok_iff.1 hc
  have haxes : Picks (IsBoxAxis root) (d.axesOf s.templates) (d.knownAxes (d.axesOf s.templates)) :=
    (picks_iff fun a _ x => boxAxis?_eq_some_iff hd hnamed).2 rfl
  refine ⟨_, _, (isGrid_iff hd).2 ⟨rfl, rfl⟩, rfl, ?_, ?_⟩
  · rw [← haxes.eq_nil_iff]
    exact boxOver_eq_none_iff
  · intro b hb
    obtain ⟨-, rfl⟩ := boxOver_eq_some_iff.1 hb
    exact ⟨haxes, rfl, fun p => period?_eq_some_iff hd⟩

/-- A document with the variables of a mooring, one bound that is no number, and the first date of a
range only. -/
def moored : Element :=
  { name := "Dataset"
    attributes := [("name", "moored")]
    children :=
      [variableElement "salt" [some "/time", some "/lat", some "/depth"],
        attributeElement "SouthernmostLatitude" "-10.5",
        attributeElement "NorthernmostLatitude" "unknown",
        attributeElement "RangeBeginningDate" "2002-07-01"]
    text := "" }

/-- A service of moorings, whose depths have no bounds. -/
def moorings : Service :=
  { latitudes with
    templates :=
      [⟨⟨"time", "time", "hours since 1970-01-01", 25, some .time⟩, some 24, some 48⟩,
        ⟨⟨"latitude", "lat", "degrees_north", 180, some .latitude⟩, some (-80), some 80⟩,
        ⟨⟨"depth", "depth", "m", 10, none⟩, some 0, none⟩] }

/-- The second day of 1970. -/
def secondDay : Period :=
  ⟨⟨86400000000000, by decide, by decide⟩, ⟨172800000000000, by decide, by decide⟩⟩

/-- The latitude is the only axis of the box, and the period is that of the template. -/
theorem derive_extent_moored :
    ∃ c b, moorings.derive moored "grids/moored" "http://localhost/moored" = .ok c ∧
      given? moored "" = none ∧ c.box = some b ∧ b.labels = ["latitude"] ∧
      b.period = some secondDay ∧ ¬HasRange moored ∧
      ∃ axes fields, IsGrid moored moorings.templates axes fields ∧
        Picks (IsBoxAxis moored) axes b.axes ∧ IsTemplatePeriod axes secondDay := by
  have hderived : ((moorings.derive moored "grids/moored" "http://localhost/moored").toOption.bind
      fun c => c.box.map fun b => (b.labels, b.period)) = some (["latitude"], some secondDay) := by
    decide +kernel
  obtain ⟨c, hc, hbox⟩ := Option.bind_eq_some_iff.1 hderived
  obtain ⟨b, hb, hparts⟩ := Option.map_eq_some_iff.1 hbox
  obtain ⟨hlabels, hperiod⟩ := Prod.mk.inj hparts
  rw [toOption_eq_some_iff] at hc
  have hnamed : given? moored "" = none := by rfl
  have hrange : ¬HasRange moored := by
    rintro ⟨-, hlast⟩
    exact absurd hlast (by decide)
  obtain ⟨axes, fields, hgrid, -, -, hall⟩ := derive_extent hc hnamed
  obtain ⟨haxes, -, hperiods⟩ := hall b hb
  rcases (hperiods secondDay).1 hperiod with hread | ⟨-, htemplate⟩
  · exact absurd hread.hasRange hrange
  · exact ⟨c, b, hc, hnamed, hb, hlabels, hperiod, hrange, axes, fields, hgrid, haxes, htemplate⟩

end Dataset

end CoverageAccess
