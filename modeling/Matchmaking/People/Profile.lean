import Matchmaking.Text.Names
import Matchmaking.Text.Blank
/-! People: what they tell about themselves and what they look for. Both records have to be
complete before their owner takes part in matching. -/
namespace Matchmaking

abbrev UserId := Nat

inductive Gender
  | male
  | female
  deriving DecidableEq, Repr

namespace Gender

def all : List Gender := [.male, .female]

def name : Gender → String
  | male => "male"
  | female => "female"

def ofName? : String → Option Gender := ofNameIn? all name

@[simp] theorem ofName?_name (g : Gender) : ofName? g.name = some g := by cases g <;> decide

def parse (s : String) : Except UnknownName Gender :=
  (ofName? s).elim (.error ⟨"gender", s⟩) .ok

end Gender

/-- A point on the globe, in degrees. -/
structure Place where
  latitude : Float
  longitude : Float

def Place.ofCoordinates : Option Float → Option Float → Option Place
  | some latitude, some longitude => some ⟨latitude, longitude⟩
  | _, _ => none

structure Profile where
  userId : UserId
  name : String
  gender : Option Gender := none
  age : Nat := 0
  bio : String := ""
  latitude : Option Float := none
  longitude : Option Float := none
  locationName : String := ""

namespace Profile

def location (p : Profile) : Option Place := Place.ofCoordinates p.latitude p.longitude

/-- Gender, age, location and the name of the location are all set. -/
def isComplete (p : Profile) : Bool :=
  p.gender.isSome && 0 < p.age && p.location.isSome && Text.trim p.locationName.toList != []

end Profile

/-- What a person looks for in a partner. -/
structure Preferences where
  userId : UserId
  /-- Nothing stands for any gender. -/
  gender : Option Gender := none
  /-- Zero stands for no bound. -/
  minAge : Nat := 0
  /-- Zero stands for no bound. -/
  maxAge : Nat := 0
  latitude : Option Float := none
  longitude : Option Float := none
  radiusKm : Float := 0

namespace Preferences

def center (p : Preferences) : Option Place := Place.ofCoordinates p.latitude p.longitude

/-- The center is set and the radius is positive. -/
def isComplete (p : Preferences) : Bool := p.center.isSome && 0 < p.radiusKm

end Preferences
end Matchmaking
