import Matchmaking.Json.Record
import Matchmaking.People.Profile
import Matchmaking.Power
/-! The JSON forms of people. Ids have 64 bits, ages 32; how a double is written is left to a
`FloatForm`. -/
namespace Matchmaking

open Json (Record natBelow nullable named)
open Json.Record (needs may)

/-- How doubles are written and read. -/
structure FloatForm where
  write : Float → Json
  read : Json → Json.Decoded Float

/-- Doubles as numbers. -/
def FloatForm.numbers : FloatForm := ⟨Json.ofFloat, Json.double⟩

namespace Json

def idBound : Nat := twoTo 64

def ageBound : Nat := twoTo 32

def id : Json → Decoded Nat := natBelow idBound

def age : Json → Decoded Nat := natBelow ageBound

def ofName {α : Type} (name : α → String) (a : α) : Json := .text (name a)

end Json

variable (form : FloatForm)

namespace Gender

def toJson : Gender → Json := Json.ofName name

def ofJson : Json → Json.Decoded Gender := named ofName?

end Gender

namespace Place

def toJson (p : Place) : Json :=
  Json.ofFields [("latitude", form.write p.latitude), ("longitude", form.write p.longitude)]

def ofJson : Json → Json.Decoded Place :=
  Record.decode (Place.mk <$> needs "latitude" form.read <*> needs "longitude" form.read)

end Place

namespace Profile

def toJson (p : Profile) : Json :=
  Json.ofFields [("userId", .ofNat p.userId), ("name", .text p.name),
    ("gender", .ofOption Gender.toJson p.gender), ("age", .ofNat p.age), ("bio", .text p.bio),
    ("latitude", .ofOption form.write p.latitude), ("longitude", .ofOption form.write p.longitude),
    ("locationName", .text p.locationName)]

def fields : Record Profile :=
  Profile.mk <$> needs "userId" Json.id <*> needs "name" Json.string <*>
    may "gender" (nullable Gender.ofJson) none <*> may "age" Json.age 0 <*>
    may "bio" Json.string "" <*> may "latitude" (nullable form.read) none <*>
    may "longitude" (nullable form.read) none <*> may "locationName" Json.string ""

def ofJson : Json → Json.Decoded Profile := (fields form).decode

end Profile

namespace Preferences

def toJson (p : Preferences) : Json :=
  Json.ofFields [("userId", .ofNat p.userId), ("gender", .ofOption Gender.toJson p.gender),
    ("minAge", .ofNat p.minAge), ("maxAge", .ofNat p.maxAge),
    ("latitude", .ofOption form.write p.latitude), ("longitude", .ofOption form.write p.longitude),
    ("radiusKm", form.write p.radiusKm)]

def fields : Record Preferences :=
  Preferences.mk <$> needs "userId" Json.id <*> may "gender" (nullable Gender.ofJson) none <*>
    may "minAge" Json.age 0 <*> may "maxAge" Json.age 0 <*>
    may "latitude" (nullable form.read) none <*>
    may "longitude" (nullable form.read) none <*> may "radiusKm" form.read 0

def ofJson : Json → Json.Decoded Preferences := (fields form).decode

end Preferences
end Matchmaking
