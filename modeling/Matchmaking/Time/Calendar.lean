/-! The proleptic Gregorian calendar. Years are counted from March, so that the leap day comes
last and every cycle of one, four, a hundred and four hundred years is regular; days are counted
from 1970-01-01. -/
namespace Matchmaking
namespace Time

structure Date where
  year : Int
  month : Nat
  day : Nat
  deriving DecidableEq, Repr

def isLeap (year : Int) : Bool := year % 4 == 0 && (year % 100 != 0 || year % 400 == 0)

def monthLength (year : Int) (month : Nat) : Nat :=
  if month = 2 then if isLeap year then 29 else 28
  else if month = 4 ∨ month = 6 ∨ month = 9 ∨ month = 11 then 30
  else 31

def Date.Valid (d : Date) : Prop :=
  1 ≤ d.month ∧ d.month ≤ 12 ∧ 1 ≤ d.day ∧ d.day ≤ monthLength d.year d.month

instance (d : Date) : Decidable d.Valid := by unfold Date.Valid; infer_instance

/-- Days from the start of March to the start of a month, March being month zero. -/
def daysBefore (marchMonth : Nat) : Nat := (153 * marchMonth + 2) / 5

/-- The day 1970-01-01 counted from the first of March of the year zero. -/
def epochDay : Int := 719468

/-- Days since 1970-01-01. -/
def Date.dayNumber (d : Date) : Int :=
  let year := if d.month ≤ 2 then d.year - 1 else d.year
  let marchMonth := (d.month + 9) % 12
  365 * year + year / 4 - year / 100 + year / 400 + (daysBefore marchMonth + d.day - 1 : Nat) -
    epochDay

/-- The date of a day number. The last day of a cycle is a leap day and belongs to its last
part. -/
def Date.ofDayNumber (n : Int) : Date :=
  let n := n + epochDay
  let inEra := (n % 146097).toNat
  let centuries := min (inEra / 36524) 3
  let inCentury := inEra - 36524 * centuries
  let inCycle := inCentury % 1461
  let years := min (inCycle / 365) 3
  let dayOfYear := inCycle - 365 * years
  let year := 400 * (n / 146097) + (100 * centuries + 4 * (inCentury / 1461) + years : Nat)
  let marchMonth := (5 * dayOfYear + 2) / 153
  let day := dayOfYear - daysBefore marchMonth + 1
  if marchMonth < 10 then ⟨year, marchMonth + 3, day⟩ else ⟨year + 1, marchMonth - 9, day⟩

end Time
end Matchmaking
