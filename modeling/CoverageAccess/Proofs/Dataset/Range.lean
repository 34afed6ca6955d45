import CoverageAccess.Proofs.Dataset.Extent
import CoverageAccess.Proofs.Time.Zone
/-!
# Ranges of dates

The position for a date and a time of day gets a zone name at its end. A time of day that takes one is
read as before; one that has a zone name already cannot be read any more, and the whole range is left
out, although both of its ends can be read as they are written (`period_of_range`).
-/

namespace CoverageAccess

namespace Dataset

open Markup Text Time

variable {root : Element} {date time day hour : String}

theorem isRangePosition_iff (hday : given? root date = some day) (hhour : given? root time = some hour)
    {position : String} :
    IsRangePosition root date time position ↔ position = trim day ++ "T" ++ trim hour ++ "Z" := by
  constructor
  · intro h
    cases h with
    | date _ htime =>
        rw [hhour] at htime
        cases htime
    | dateAndTime hday' hhour' =>
        rw [hday, Option.some.injEq] at hday'
        rw [hhour, Option.some.injEq] at hhour'
        rw [hday', hhour']
  · rintro rfl
    exact .dateAndTime hday hhour

theorem isRangePeriod_iff_of_hours {day' hour' : String} {p : Period}
    (hday : given? root "RangeBeginningDate" = some day)
    (hhour : given? root "RangeBeginningTime" = some hour)
    (hday' : given? root "RangeEndingDate" = some day')
    (hhour' : given? root "RangeEndingTime" = some hour') : IsRangePeriod root p ↔
      parsePosition (trim day ++ "T" ++ trim hour ++ "Z") = .ok p.start ∧
        parsePosition (trim day' ++ "T" ++ trim hour' ++ "Z") = .ok p.finish ∧
          p.start.le p.finish = true := by
  constructor
  · rintro ⟨⟨first, hfirst, hstart⟩, ⟨last, hlast, hfinish⟩, hle⟩
    rw [isRangePosition_iff hday hhour] at hfirst
    rw [isRangePosition_iff hday' hhour'] at hlast
    exact ⟨hfirst ▸ hstart, hlast ▸ hfinish, hle⟩
  · rintro ⟨hstart, hfinish, hle⟩
    exact ⟨⟨_, (isRangePosition_iff hday hhour).2 rfl, hstart⟩,
      ⟨_, (isRangePosition_iff hday' hhour').2 rfl, hfinish⟩, hle⟩

theorem trim_append_T (hday : trim day = day) (hhour : trim hour = hour) :
    trim (day ++ "T" ++ hour) = day ++ "T" ++ hour := by
  rw [trim_eq_self_iff] at *
  have htext : (day ++ "T" ++ hour).toList = day.toList ++ 'T' :: hour.toList := by simp
  rw [htext]
  exact hday.append_cons hhour (by decide)

/-- A box has the period of a range that can be read if both times of day take a zone name, and none
otherwise. -/
theorem period_of_range {s : Service} {id url day hour day' hour' : String} {c : Coverage} {b : Box}
    {i j : Instant} (h : s.derive root id url = .ok c) (hb : c.box = some b)
    (hday : given? root "RangeBeginningDate" = some day)
    (hhour : given? root "RangeBeginningTime" = some hour)
    (hday' : given? root "RangeEndingDate" = some day')
    (hhour' : given? root "RangeEndingTime" = some hour')
    (hbare : trim day = day ∧ trim hour = hour) (hbare' : trim day' = day' ∧ trim hour' = hour')
    (hi : parsePosition (day ++ "T" ++ hour) = .ok i)
    (hj : parsePosition (day' ++ "T" ++ hour') = .ok j) (hle : i.le j = true) :
    (TakesZone (day ++ "T" ++ hour) ∧ TakesZone (day' ++ "T" ++ hour') →
      b.period = some ⟨i, j⟩) ∧
    (¬(TakesZone (day ++ "T" ++ hour) ∧ TakesZone (day' ++ "T" ++ hour')) → b.period = none) := by
  obtain ⟨d, axes, hd, hperiod⟩ := exists_period?_of_derive h hb
  have hrange : HasRange root := ⟨by rw [hday]; rfl, by rw [hday']; rfl⟩
  have hread (p : Period) : b.period = some p ↔
      parsePosition (day ++ "T" ++ hour ++ "Z") = .ok p.start ∧
        parsePosition (day' ++ "T" ++ hour' ++ "Z") = .ok p.finish ∧ p.start.le p.finish = true := by
    rw [hperiod, period?_eq_some_iff hd, isRangePeriod_iff_of_hours hday hhour hday' hhour',
      hbare.1, hbare.2, hbare'.1, hbare'.2]
    exact or_iff_left fun htemplate => htemplate.1 hrange
  obtain ⟨hkept, hlost⟩ := parsePosition_append_zulu hi (trim_append_T hbare.1 hbare.2) (by simp)
  obtain ⟨hkept', hlost'⟩ := parsePosition_append_zulu hj (trim_append_T hbare'.1 hbare'.2) (by simp)
  constructor
  · rintro ⟨htakes, htakes'⟩
    exact (hread ⟨i, j⟩).2 ⟨hkept htakes, hkept' htakes', hle⟩
  · intro htakes
    rw [Option.eq_none_iff_forall_ne_some]
    intro p hp
    obtain ⟨hstart, hfinish, -⟩ := (hread p).1 hp
    rcases Classical.not_and_iff_not_or_not.1 htakes with hnot | hnot
    · obtain ⟨f, hf⟩ := hlost hnot
      rw [hf] at hstart
      cases hstart
    · obtain ⟨f, hf⟩ := hlost' hnot
      rw [hf] at hfinish
      cases hfinish

/-- A document with tides over nine days and a half, which begin at the given time of day. -/
def tidal (hour : String) : Element :=
  { name := "Dataset"
    attributes := [("name", "tides")]
    children :=
      [variableElement "tide" [some "/lat"],
        attributeElement "RangeBeginningDate" "2002-07-01",
        attributeElement "RangeBeginningTime" hour,
        attributeElement "RangeEndingDate" "2002-07-10",
        attributeElement "RangeEndingTime" "12:00:00"]
    text := "" }

/-- A service of tides, with bounds for the latitude. -/
def tides : Service :=
  { latitudes with
    templates :=
      [⟨⟨"latitude", "lat", "degrees_north", 180, some .latitude⟩, some (-80), some 80⟩] }

/-- The period of the tides. -/
def tidePeriod : Period :=
  ⟨⟨1025481600000000000, by decide, by decide⟩, ⟨1026302400000000000, by decide, by decide⟩⟩

/-- With a zone name after the time at which they begin, the tides have no period. -/
theorem period_of_range_tidal :
    (∃ c b, tides.derive (tidal "00:00:00") "grids/tides" "http://localhost/tides" = .ok c ∧
      c.box = some b ∧ b.period = some tidePeriod) ∧
    parsePosition "2002-07-01T00:00:00Z" = .ok tidePeriod.start ∧
    ∃ c b, tides.derive (tidal "00:00:00Z") "grids/tides" "http://localhost/tides" = .ok c ∧
      c.box = some b ∧ b.period = none := by
  have hderived (hour : String) (h : hour = "00:00:00" ∨ hour = "00:00:00Z") : ∃ c b,
      tides.derive (tidal hour) "grids/tides" "http://localhost/tides" = .ok c ∧ c.box = some b := by
    have hlabels : ((tides.derive (tidal hour) "grids/tides"
        "http://localhost/tides").toOption.bind Coverage.box).isSome = true := by
      rcases h with rfl | rfl <;> decide +kernel
    obtain ⟨b, hb⟩ := Option.isSome_iff_exists.1 hlabels
    obtain ⟨c, hc, hb⟩ := Option.bind_eq_some_iff.1 hb
    exact ⟨c, b, toOption_eq_some_iff.1 hc, hb⟩
  have hnoon : parsePosition ("2002-07-10" ++ "T" ++ "12:00:00") = .ok tidePeriod.finish := by
    rfl
  have hbare : trim "2002-07-10" = "2002-07-10" ∧ trim "12:00:00" = "12:00:00" := by decide
  refine ⟨?_, by rfl, ?_⟩
  · obtain ⟨c, b, hc, hb⟩ := hderived _ (.inl rfl)
    have hperiod := period_of_range hc hb rfl rfl rfl rfl (by decide) hbare
      (show _ = Except.ok tidePeriod.start by rfl) hnoon (by decide)
    exact ⟨c, b, hc, hb, hperiod.1 (by decide)⟩
  · obtain ⟨c, b, hc, hb⟩ := hderived _ (.inr rfl)
    have hperiod := period_of_range hc hb rfl rfl rfl rfl (by decide) hbare
      (show _ = Except.ok tidePeriod.start by rfl) hnoon (by decide)
    exact ⟨c, b, hc, hb, hperiod.2 (by decide)⟩

end Dataset

end CoverageAccess
