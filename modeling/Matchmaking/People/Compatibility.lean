import Matchmaking.Geo.Ellipsoid
/-! Compatibility of two people. A person accepts a profile by gender, age and distance, and a
distance that cannot be computed is never accepted. -/
namespace Matchmaking
namespace Preferences

def acceptsGender (p : Preferences) (gender : Option Gender) : Bool :=
  p.gender.isNone || p.gender == gender

/-- A bound of zero does not bound. -/
def acceptsAge (p : Preferences) (age : Nat) : Bool :=
  (p.minAge == 0 || p.minAge ≤ age) && (p.maxAge == 0 || age ≤ p.maxAge)

/-- The distance of a place from the center, where both are set and it can be told. -/
def distanceTo? (p : Preferences) (ruler : Geo.Ruler) (location : Option Place) : Option Float :=
  match p.center, location with
  | some center, some location => ruler center location
  | _, _ => none

def acceptsDistance (p : Preferences) (km : Option Float) : Bool :=
  km.any fun km => km ≤ p.radiusKm

/-- A profile suits these preferences, by the distances that a ruler tells. -/
def acceptsBy (ruler : Geo.Ruler) (p : Preferences) (q : Profile) : Bool :=
  p.acceptsGender q.gender && p.acceptsAge q.age &&
    p.acceptsDistance (p.distanceTo? ruler q.location)

def accepts (p : Preferences) (q : Profile) : Bool := p.acceptsBy Geo.ruler q

end Preferences

/-- A person with both records. -/
structure Person where
  profile : Profile
  preferences : Preferences

namespace Person

def isComplete (p : Person) : Bool := p.profile.isComplete && p.preferences.isComplete

/-- Each accepts the other. -/
def suitsBy (ruler : Geo.Ruler) (p q : Person) : Bool :=
  p.preferences.acceptsBy ruler q.profile && q.preferences.acceptsBy ruler p.profile

def suits (p q : Person) : Bool := p.suitsBy Geo.ruler q

theorem suitsBy_comm (ruler : Geo.Ruler) (p q : Person) :
    p.suitsBy ruler q = q.suitsBy ruler p := by
  simp [suitsBy, Bool.and_comm]

end Person
end Matchmaking
