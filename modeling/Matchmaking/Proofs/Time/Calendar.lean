import Matchmaking.Time.Calendar
import Mathlib.Tactic.Common
/-! Days and dates are two names for the same thing: the date of a day number exists in the
calendar, and its day number is that number again. -/
namespace Matchmaking
namespace Time

namespace Date

/-- The date of a day of a year that begins with March; the days of the year count from zero. -/
def ofMarch (year : Int) (dayOfYear : Nat) : Date :=
  let marchMonth := (5 * dayOfYear + 2) / 153
  let day := dayOfYear - daysBefore marchMonth + 1
  if marchMonth < 10 then ⟨year, marchMonth + 3, day⟩ else ⟨year + 1, marchMonth - 9, day⟩

/-- The days before a year, from its place in its era, its century and its cycle of leap years. -/
theorem days_before_year (era : Int) {centuries cycles years : Nat} (hCenturies : centuries ≤ 3)
    (hCycles : cycles ≤ 24) (hYears : years ≤ 3) {year : Int}
    (same : year = 400 * era + (100 * centuries + 4 * cycles + years : Nat)) :
    365 * year + year / 4 - year / 100 + year / 400 =
      146097 * era + 36524 * centuries + 1461 * cycles + 365 * years := by
  have fours : year / 4 = 100 * era + 25 * centuries + cycles := by omega
  have hundreds : year / 100 = 4 * era + centuries := by omega
  have eras : year / 400 = era := by omega
  omega

/-- A day lies in a year that begins with March, and it is the 366th only if that year ends with a
leap day. -/
theorem exists_ofMarch (n : Int) : ∃ (year : Int) (dayOfYear : Nat),
    ofDayNumber n = ofMarch year dayOfYear ∧ dayOfYear ≤ 365 ∧
      (dayOfYear = 365 → isLeap (year + 1)) ∧
        365 * year + year / 4 - year / 100 + year / 400 + dayOfYear - epochDay = n := by
  set inEra := ((n + epochDay) % 146097).toNat with hEra
  set centuries := min (inEra / 36524) 3 with hCenturies
  set inCentury := inEra - 36524 * centuries with hCentury
  set inCycle := inCentury % 1461 with hCycle
  set years := min (inCycle / 365) 3 with hYears
  have inEra_le : inEra ≤ 146096 := by omega
  have inCentury_le : inCentury ≤ 36523 ∨ inCentury = 36524 ∧ centuries = 3 := by omega
  have cycles_le : inCentury / 1461 ≤ 24 := by omega
  have dayOfYear_le : inCycle - 365 * years ≤ 365 := by omega
  refine ⟨400 * ((n + epochDay) / 146097) + (100 * centuries + 4 * (inCentury / 1461) + years : Nat),
    inCycle - 365 * years, rfl, dayOfYear_le, ?_, ?_⟩
  · intro last
    have lastYear : years = 3 := by omega
    have lastCycle : inCentury / 1461 = 24 → centuries = 3 := by omega
    simp only [isLeap, Bool.and_eq_true, Bool.or_eq_true, beq_iff_eq, bne_iff_ne, lastYear]
    omega
  · rw [days_before_year _ (by omega) cycles_le (by omega) rfl]
    simp only [epochDay] at *
    omega

/-- The month of a day of the year, and its day in that month, whose length is the usual one. -/
theorem marchMonth_spec : ∀ d < 366,
    (5 * d + 2) / 153 < 12 ∧ daysBefore ((5 * d + 2) / 153) ≤ d ∧
      d - daysBefore ((5 * d + 2) / 153) + 1 ≤
        if (5 * d + 2) / 153 = 11 then if d = 365 then 29 else 28
        else if (5 * d + 2) / 153 ∈ [1, 3, 6, 8] then 30 else 31 := by
  decide +kernel

theorem dayNumber_ofMarch (year : Int) {d : Nat} (bound : d ≤ 365) :
    (ofMarch year d).dayNumber =
      365 * year + year / 4 - year / 100 + year / 400 + d - epochDay := by
  obtain ⟨small, before, -⟩ := marchMonth_spec d (by omega)
  rw [ofMarch]
  generalize (5 * d + 2) / 153 = month at small before ⊢
  have counted : daysBefore month + (d - daysBefore month + 1) - 1 = d := by omega
  by_cases early : month < 10
  · have later : ¬month + 3 ≤ 2 := by omega
    have back : (month + 3 + 9) % 12 = month := by omega
    simp only [dayNumber, early, if_true, later, if_false, back, counted]
  · have winter : month - 9 ≤ 2 := by omega
    have back : (month - 9 + 9) % 12 = month := by omega
    simp only [dayNumber, early, if_false, winter, if_true, back, counted, Int.add_sub_cancel]

theorem valid_ofMarch {year : Int} {d : Nat} (bound : d ≤ 365)
    (leap : d = 365 → isLeap (year + 1)) : (ofMarch year d).Valid := by
  obtain ⟨small, before, fits⟩ := marchMonth_spec d (by omega)
  rw [ofMarch]
  generalize (5 * d + 2) / 153 = month at small before fits ⊢
  by_cases early : month < 10
  · have noWinter : month ≠ 11 := by omega
    simp only [early, if_true, Valid, monthLength]
    grind
  · have winter : month = 10 ∨ month = 11 := by omega
    rcases winter with rfl | rfl
    · simpa [Valid, monthLength] using fits
    · by_cases last : d = 365
      · simpa [Valid, monthLength, last, leap last] using fits
      · have short : d - daysBefore 11 + 1 ≤ 28 := by simpa [last] using fits
        simp only [Valid, monthLength]
        grind

theorem dayNumber_ofDayNumber (n : Int) : (ofDayNumber n).dayNumber = n := by
  obtain ⟨year, d, same, bound, -, day⟩ := exists_ofMarch n
  rw [same, dayNumber_ofMarch year bound, day]

theorem valid_ofDayNumber (n : Int) : (ofDayNumber n).Valid := by
  obtain ⟨year, d, same, bound, leap, -⟩ := exists_ofMarch n
  rw [same]
  exact valid_ofMarch bound leap

end Date
end Time
end Matchmaking
