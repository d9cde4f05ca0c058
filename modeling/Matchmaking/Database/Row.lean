import Matchmaking.Database.Column
/-! Rows of the database as records, and the rows that records are written as. A column is looked
at only after those before it were found sound; the order is part of what a faulty row answers. -/
namespace Matchmaking
namespace Database

structure ProfileRow where
  userId : Cell Int64
  name : Cell String
  gender : Cell String
  age : Cell Int32
  bio : Cell String
  latitude : Cell Float
  longitude : Cell Float
  locationName : Cell String

def ProfileRow.decode (r : ProfileRow) : Except StoreError Profile := do
  let age ← present r.age
  let userId ← readId r.userId
  let name ← present r.name
  let gender ← readGender r.gender
  let age ← ofAge "age" age
  let bio ← present r.bio
  let locationName ← present r.locationName
  return ⟨userId, name, gender, age, bio, r.latitude, r.longitude, locationName⟩

structure PreferencesRow where
  userId : Cell Int64
  gender : Cell String
  minAge : Cell Int32
  maxAge : Cell Int32
  latitude : Cell Float
  longitude : Cell Float
  radiusKm : Cell Float

def PreferencesRow.decode (r : PreferencesRow) : Except StoreError Preferences := do
  let minAge ← present r.minAge
  let maxAge ← present r.maxAge
  let userId ← readId r.userId
  let gender ← readGender r.gender
  let minAge ← ofAge "min_age" minAge
  let maxAge ← ofAge "max_age" maxAge
  let radiusKm ← present r.radiusKm
  return ⟨userId, gender, minAge, maxAge, r.latitude, r.longitude, radiusKm⟩

structure AttemptRow where
  id : Cell Int64
  first : Cell Int64
  second : Cell Int64
  state : Cell String
  createdAt : Cell Timestamp
  deriving DecidableEq

def AttemptRow.decode (r : AttemptRow) : Except StoreError Attempt := do
  let state ← present r.state
  let id ← readId r.id
  let first ← readId r.first
  let second ← readId r.second
  let state ← named State.parse state
  let createdAt ← present r.createdAt
  return ⟨id, first, second, state, createdAt⟩

/-- The row that an attempt is written as. -/
def AttemptRow.encode (a : Attempt) : Except StoreError AttemptRow := do
  let id ← toId a.id
  let first ← toId a.first
  let second ← toId a.second
  return ⟨some id, some first, some second, some a.state.name, some a.createdAt⟩

structure EventRow where
  id : Cell Int64
  attempt : Cell Int64
  createdAt : Cell Timestamp
  happening : Cell String
  deriving DecidableEq

def EventRow.decode (r : EventRow) : Except StoreError Event := do
  let happening ← present r.happening
  let id ← readId r.id
  let attempt ← readId r.attempt
  let createdAt ← present r.createdAt
  let happening ← named Happening.parse happening
  return ⟨id, attempt, createdAt, happening⟩

/-- The row that an event is written as. -/
def EventRow.encode (e : Event) : Except StoreError EventRow := do
  let id ← toId e.id
  let attempt ← toId e.attempt
  return ⟨some id, some attempt, some e.createdAt, some e.happening.name⟩

structure ChatRow where
  id : Cell Int64
  first : Cell Int64
  second : Cell Int64

def ChatRow.decode (r : ChatRow) : Except StoreError Chat := do
  return ⟨← readId r.id, ← readId r.first, ← readId r.second⟩

end Database
end Matchmaking
