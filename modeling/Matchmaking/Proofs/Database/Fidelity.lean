import Matchmaking.Database.Row
/-! Rows of the database stand for records without loss and without repair. A row with columns as
the tables declare them is read exactly if it is sound, and is malformed otherwise; the record keeps
every column; and an attempt or an event is written as a row that is read as it. -/
namespace Matchmaking

theorem elim_ofNameIn?_eq_ok_iff {α : Type} {all : List α} {name : α → String} {e : UnknownName}
    (found : ∀ a, ofNameIn? all name (name a) = some a) {s : String} {a : α} :
    (ofNameIn? all name s).elim (Except.error e) Except.ok = .ok a ↔ name a = s := by
  constructor
  · intro parsed
    cases known : ofNameIn? all name s with
    | none => simp [known] at parsed
    | some b =>
      obtain rfl : b = a := by simpa [known] using parsed
      exact name_of_ofNameIn? known
  · rintro rfl
    rw [found, Option.elim_some]

theorem Gender.parse_eq_ok_iff {s : String} {g : Gender} : parse s = .ok g ↔ g.name = s :=
  elim_ofNameIn?_eq_ok_iff ofName?_name

theorem State.parse_eq_ok_iff {s : String} {state : State} : parse s = .ok state ↔ state.name = s :=
  elim_ofNameIn?_eq_ok_iff ofName?_name

theorem Happening.parse_eq_ok_iff {s : String} {h : Happening} : parse s = .ok h ↔ h.name = s :=
  elim_ofNameIn?_eq_ok_iff ofName?_name

namespace Database

section Ids

variable {id : Nat} {stored : Int64}

theorem toId_of_lt (small : id < twoTo 63) : toId id = .ok (Int64.ofNat id) := if_pos small

theorem toId_of_le (large : twoTo 63 ≤ id) :
    toId id = .error (.malformed ("id " ++ toString id ++ " out of range")) :=
  if_neg (Nat.not_lt.mpr large)

theorem toInt_of_toId (written : toId id = .ok stored) : stored.toInt = id := by
  have read := ofId_toId written
  unfold ofId at read
  split at read
  · next nonneg =>
    obtain rfl := Except.ok.inj read
    exact (Int.toNat_of_nonneg nonneg).symm
  · simp at read

theorem readId_of_toId (written : toId id = .ok stored) : readId (some stored) = .ok id :=
  ofId_toId written

end Ids

/-- What a reading comes to: a value that keeps what was stored, where that is declared and sound;
else a malformed value, where it is not sound; or else some failure, where it is not declared. -/
inductive Reads {α : Type} (declared sound : Prop) (keeps : α → Prop) :
    Except StoreError α → Prop
  | accepted {a : α} (isDeclared : declared) (isSound : sound) (kept : keeps a) :
      Reads declared sound keeps (.ok a)
  | malformed {detail : String} (unsound : ¬sound) :
      Reads declared sound keeps (.error (.malformed detail))
  | undeclared {e : StoreError} (undeclared : ¬declared) : Reads declared sound keeps (.error e)

namespace Reads

variable {α β : Type} {read : Except StoreError α} {f : α → Except StoreError β}
  {declared declared' sound sound' : Prop} {keeps keeps' : α → Prop} {kept : β → Prop}

theorem imp (reads : Reads declared sound keeps read) (asDeclared : declared ↔ declared')
    (asSound : sound ↔ sound') (weaker : ∀ a, keeps a → keeps' a) :
    Reads declared' sound' keeps' read := by
  cases reads with
  | accepted d s kept => exact .accepted (asDeclared.mp d) (asSound.mp s) (weaker _ kept)
  | malformed unsound => exact .malformed (mt asSound.mpr unsound)
  | undeclared undeclared => exact .undeclared (mt asDeclared.mpr undeclared)

theorem bind (first : Reads declared sound keeps read)
    (rest : ∀ a, keeps a → Reads declared' sound' kept (f a)) :
    Reads (declared ∧ declared') (sound ∧ sound') kept (read >>= f) := by
  cases first with
  | accepted d s k => exact (rest _ k).imp (by simp [d]) (by simp [s]) fun _ => id
  | malformed unsound => exact .malformed (unsound ·.1)
  | undeclared undeclared => exact .undeclared (undeclared ·.1)

theorem map {g : α → β} (reads : Reads declared sound keeps read)
    (passes : ∀ a, keeps a → kept (g a)) : Reads declared sound kept (read.map g) := by
  cases reads with
  | accepted d s k => exact .accepted d s (passes _ k)
  | malformed unsound => exact .malformed unsound
  | undeclared undeclared => exact .undeclared undeclared

end Reads

section Columns

variable {α : Type} {stored : Int64} {column : String}

theorem reads_present (cell : Cell α) : Reads cell.isSome True (cell = some ·) (present cell) := by
  cases cell with
  | none => exact .undeclared nofun
  | some v => exact .accepted rfl trivial rfl

theorem reads_readId (cell : Cell Int64) :
    Reads cell.isSome (∀ stored ∈ cell, 0 ≤ stored.toInt)
      (fun id => ∃ stored, cell = some stored ∧ toId id = .ok stored) (readId cell) := by
  cases cell with
  | none => exact .undeclared nofun
  | some stored =>
    change Reads _ _ _ (ofId stored)
    cases read : ofId stored with
    | ok id =>
      have nonneg : 0 ≤ stored.toInt := by rw [toInt_of_toId (toId_ofId read)]; omega
      exact .accepted rfl (by simpa using nonneg) ⟨stored, rfl, toId_ofId read⟩
    | error e =>
      unfold ofId at read
      split at read
      · simp at read
      · next negative =>
        obtain rfl := Except.error.inj read
        exact .malformed fun sound => negative (sound stored rfl)

theorem map_toInt_of_held {cell : Cell Int64} {id : Nat}
    (held : ∃ stored, cell = some stored ∧ toId id = .ok stored) :
    cell.map Int64.toInt = some ↑id := by
  obtain ⟨stored, rfl, written⟩ := held
  rw [Option.map_some, toInt_of_toId written]

theorem reads_ofAge {cell : Cell Int32} {stored : Int32} (held : cell = some stored) :
    Reads True (∀ stored ∈ cell, 0 ≤ stored.toInt)
      (fun age : Nat => cell.map Int32.toInt = some ↑age) (ofAge column stored) := by
  subst held
  unfold ofAge
  split
  · next nonneg =>
    have kept : stored.toInt = ↑stored.toInt.toNat := (Int.toNat_of_nonneg nonneg).symm
    exact .accepted trivial (by simpa using nonneg) (congrArg some kept)
  · next negative => exact .malformed fun sound => negative (sound stored rfl)

theorem reads_named {parse : String → Except UnknownName α} {name : α → String}
    (names : ∀ {s a}, parse s = .ok a ↔ name a = s) {cell : Cell String} {stored : String}
    (held : cell = some stored) :
    Reads True (∀ stored ∈ cell, ∃ a, name a = stored) (fun a => cell = some (name a))
      (named parse stored) := by
  subst held
  unfold named
  cases parsed : parse stored with
  | ok a =>
    have same := names.mp parsed
    exact .accepted trivial (by simpa using ⟨a, same⟩) (by rw [same])
  | error e =>
    refine .malformed fun sound => ?_
    obtain ⟨a, same⟩ := sound stored rfl
    rw [names.mpr same] at parsed
    cases parsed

theorem named_name {parse : String → Except UnknownName α} {name : α → String}
    (names : ∀ {s a}, parse s = .ok a ↔ name a = s) (a : α) : named parse (name a) = .ok a := by
  rw [named, names.mpr rfl]
  rfl

theorem exists_name_eq_iff {s : String} :
    (∃ g : Gender, g.name = s) ↔ s = "male" ∨ s = "female" := by
  constructor
  · rintro ⟨_ | _, rfl⟩
    · exact .inl rfl
    · exact .inr rfl
  · rintro (rfl | rfl)
    · exact ⟨.male, rfl⟩
    · exact ⟨.female, rfl⟩

theorem reads_readGender (cell : Cell String) :
    Reads True (cell = none ∨ cell = some "male" ∨ cell = some "female")
      (fun gender => cell = gender.map Gender.name) (readGender cell) := by
  cases cell with
  | none => exact .accepted trivial (.inl rfl) rfl
  | some stored =>
    have parsed := reads_named Gender.parse_eq_ok_iff (rfl : some stored = some stored)
    have reads : Reads _ _ (fun gender => some stored = gender.map Gender.name)
        (readGender (some stored)) := parsed.map fun _ => id
    exact reads.imp Iff.rfl (by simp [exists_name_eq_iff]) fun _ => id

end Columns

section Rows

namespace AttemptRow

structure IsDeclared (r : AttemptRow) : Prop where
  id : r.id.isSome
  first : r.first.isSome
  second : r.second.isSome
  state : r.state.isSome
  createdAt : r.createdAt.isSome

structure IsSound (r : AttemptRow) : Prop where
  id : ∀ stored ∈ r.id, 0 ≤ stored.toInt
  first : ∀ stored ∈ r.first, 0 ≤ stored.toInt
  second : ∀ stored ∈ r.second, 0 ≤ stored.toInt
  state : ∀ stored ∈ r.state, ∃ state : State, state.name = stored

theorem encode_of_toId {a : Attempt} {i u v : Int64} (id : toId a.id = .ok i)
    (first : toId a.first = .ok u) (second : toId a.second = .ok v) :
    encode a = .ok ⟨some i, some u, some v, some a.state.name, some a.createdAt⟩ := by
  rw [encode, id, first, second]
  rfl

theorem reads_decode (r : AttemptRow) :
    Reads r.IsDeclared r.IsSound (fun a => encode a = .ok r) r.decode := by
  have reads : Reads _ _ (fun a => encode a = .ok r) r.decode :=
    (reads_present r.state).bind fun _ text => (reads_readId r.id).bind fun id storedId =>
      (reads_readId r.first).bind fun first storedFirst =>
        (reads_readId r.second).bind fun second storedSecond =>
          (reads_named State.parse_eq_ok_iff text).bind fun state named =>
            (reads_present r.createdAt).bind fun createdAt time => by
              obtain ⟨i, heldId, writtenId⟩ := storedId
              obtain ⟨u, heldFirst, writtenFirst⟩ := storedFirst
              obtain ⟨v, heldSecond, writtenSecond⟩ := storedSecond
              refine .accepted trivial trivial ?_
              rw [encode_of_toId writtenId writtenFirst writtenSecond, ← heldId, ← heldFirst,
                ← heldSecond, ← named, ← time]
  refine reads.imp ⟨?_, ?_⟩ ⟨?_, ?_⟩ fun _ kept => kept
  · rintro ⟨state, id, first, second, -, time, -⟩
    exact ⟨id, first, second, state, time⟩
  · rintro ⟨id, first, second, state, time⟩
    exact ⟨state, id, first, second, trivial, time, trivial⟩
  · rintro ⟨-, id, first, second, state, -⟩
    exact ⟨id, first, second, state⟩
  · rintro ⟨id, first, second, state⟩
    exact ⟨trivial, id, first, second, state, trivial, trivial⟩

theorem exists_encode {a : Attempt} (id : a.id < twoTo 63) (first : a.first < twoTo 63)
    (second : a.second < twoTo 63) : ∃ r, encode a = .ok r ∧ r.decode = .ok a := by
  refine ⟨_, encode_of_toId (toId_of_lt id) (toId_of_lt first) (toId_of_lt second), ?_⟩
  simp only [decode, present, readId_of_toId (toId_of_lt id), readId_of_toId (toId_of_lt first),
    readId_of_toId (toId_of_lt second), named_name State.parse_eq_ok_iff, bind, Except.bind, pure,
    Except.pure]

end AttemptRow

namespace EventRow

structure IsDeclared (r : EventRow) : Prop where
  id : r.id.isSome
  attempt : r.attempt.isSome
  createdAt : r.createdAt.isSome
  happening : r.happening.isSome

structure IsSound (r : EventRow) : Prop where
  id : ∀ stored ∈ r.id, 0 ≤ stored.toInt
  attempt : ∀ stored ∈ r.attempt, 0 ≤ stored.toInt
  happening : ∀ stored ∈ r.happening, ∃ h : Happening, h.name = stored

theorem encode_of_toId {e : Event} {i a : Int64} (id : toId e.id = .ok i)
    (attempt : toId e.attempt = .ok a) :
    encode e = .ok ⟨some i, some a, some e.createdAt, some e.happening.name⟩ := by
  rw [encode, id, attempt]
  rfl

theorem reads_decode (r : EventRow) :
    Reads r.IsDeclared r.IsSound (fun e => encode e = .ok r) r.decode := by
  have reads : Reads _ _ (fun e => encode e = .ok r) r.decode :=
    (reads_present r.happening).bind fun _ text => (reads_readId r.id).bind fun id storedId =>
      (reads_readId r.attempt).bind fun attempt storedAttempt =>
        (reads_present r.createdAt).bind fun createdAt time =>
          (reads_named Happening.parse_eq_ok_iff text).bind fun happening named => by
            obtain ⟨i, heldId, writtenId⟩ := storedId
            obtain ⟨a, heldAttempt, writtenAttempt⟩ := storedAttempt
            refine .accepted trivial trivial ?_
            rw [encode_of_toId writtenId writtenAttempt, ← heldId, ← heldAttempt, ← named, ← time]
  refine reads.imp ⟨?_, ?_⟩ ⟨?_, ?_⟩ fun _ kept => kept
  · rintro ⟨happening, id, attempt, time, -⟩
    exact ⟨id, attempt, time, happening⟩
  · rintro ⟨id, attempt, time, happening⟩
    exact ⟨happening, id, attempt, time, trivial, trivial⟩
  · rintro ⟨-, id, attempt, -, happening, -⟩
    exact ⟨id, attempt, happening⟩
  · rintro ⟨id, attempt, happening⟩
    exact ⟨trivial, id, attempt, trivial, happening, trivial⟩

theorem exists_encode {e : Event} (id : e.id < twoTo 63) (attempt : e.attempt < twoTo 63) :
    ∃ r, encode e = .ok r ∧ r.decode = .ok e := by
  refine ⟨_, encode_of_toId (toId_of_lt id) (toId_of_lt attempt), ?_⟩
  simp only [decode, present, readId_of_toId (toId_of_lt id), readId_of_toId (toId_of_lt attempt),
    named_name Happening.parse_eq_ok_iff, bind, Except.bind, pure, Except.pure]

end EventRow

namespace ProfileRow

structure IsDeclared (r : ProfileRow) : Prop where
  userId : r.userId.isSome
  name : r.name.isSome
  age : r.age.isSome
  bio : r.bio.isSome
  locationName : r.locationName.isSome

structure IsSound (r : ProfileRow) : Prop where
  userId : ∀ stored ∈ r.userId, 0 ≤ stored.toInt
  gender : r.gender = none ∨ r.gender = some "male" ∨ r.gender = some "female"
  age : ∀ stored ∈ r.age, 0 ≤ stored.toInt

structure Keeps (r : ProfileRow) (p : Profile) : Prop where
  userId : r.userId.map Int64.toInt = some ↑p.userId
  name : r.name = some p.name
  gender : r.gender = p.gender.map Gender.name
  age : r.age.map Int32.toInt = some ↑p.age
  bio : r.bio = some p.bio
  latitude : r.latitude = p.latitude
  longitude : r.longitude = p.longitude
  locationName : r.locationName = some p.locationName

theorem reads_decode (r : ProfileRow) : Reads r.IsDeclared r.IsSound r.Keeps r.decode := by
  have reads : Reads _ _ r.Keeps r.decode :=
    (reads_present r.age).bind fun _ number => (reads_readId r.userId).bind fun userId stored =>
      (reads_present r.name).bind fun name heldName =>
        (reads_readGender r.gender).bind fun gender heldGender =>
          (reads_ofAge number).bind fun age heldAge =>
            (reads_present r.bio).bind fun bio heldBio =>
              (reads_present r.locationName).bind fun locationName heldPlace =>
                .accepted trivial trivial ⟨map_toInt_of_held stored, heldName, heldGender, heldAge,
                  heldBio, rfl, rfl, heldPlace⟩
  refine reads.imp ⟨?_, ?_⟩ ⟨?_, ?_⟩ fun _ kept => kept
  · rintro ⟨age, userId, name, -, -, bio, place, -⟩
    exact ⟨userId, name, age, bio, place⟩
  · rintro ⟨userId, name, age, bio, place⟩
    exact ⟨age, userId, name, trivial, trivial, bio, place, trivial⟩
  · rintro ⟨-, userId, -, gender, age, -⟩
    exact ⟨userId, gender, age⟩
  · rintro ⟨userId, gender, age⟩
    exact ⟨trivial, userId, trivial, gender, age, trivial, trivial, trivial⟩

end ProfileRow

namespace PreferencesRow

structure IsDeclared (r : PreferencesRow) : Prop where
  userId : r.userId.isSome
  minAge : r.minAge.isSome
  maxAge : r.maxAge.isSome
  radiusKm : r.radiusKm.isSome

structure IsSound (r : PreferencesRow) : Prop where
  userId : ∀ stored ∈ r.userId, 0 ≤ stored.toInt
  gender : r.gender = none ∨ r.gender = some "male" ∨ r.gender = some "female"
  minAge : ∀ stored ∈ r.minAge, 0 ≤ stored.toInt
  maxAge : ∀ stored ∈ r.maxAge, 0 ≤ stored.toInt

structure Keeps (r : PreferencesRow) (p : Preferences) : Prop where
  userId : r.userId.map Int64.toInt = some ↑p.userId
  gender : r.gender = p.gender.map Gender.name
  minAge : r.minAge.map Int32.toInt = some ↑p.minAge
  maxAge : r.maxAge.map Int32.toInt = some ↑p.maxAge
  latitude : r.latitude = p.latitude
  longitude : r.longitude = p.longitude
  radiusKm : r.radiusKm = some p.radiusKm

theorem reads_decode (r : PreferencesRow) : Reads r.IsDeclared r.IsSound r.Keeps r.decode := by
  have reads : Reads _ _ r.Keeps r.decode :=
    (reads_present r.minAge).bind fun _ least => (reads_present r.maxAge).bind fun _ most =>
      (reads_readId r.userId).bind fun userId stored =>
        (reads_readGender r.gender).bind fun gender heldGender =>
          (reads_ofAge least).bind fun minAge heldMin =>
            (reads_ofAge most).bind fun maxAge heldMax =>
              (reads_present r.radiusKm).bind fun radiusKm heldRadius =>
                .accepted trivial trivial ⟨map_toInt_of_held stored, heldGender, heldMin, heldMax,
                  rfl, rfl, heldRadius⟩
  refine reads.imp ⟨?_, ?_⟩ ⟨?_, ?_⟩ fun _ kept => kept
  · rintro ⟨least, most, userId, -, -, -, radius, -⟩
    exact ⟨userId, least, most, radius⟩
  · rintro ⟨userId, least, most, radius⟩
    exact ⟨least, most, userId, trivial, trivial, trivial, radius, trivial⟩
  · rintro ⟨-, -, userId, gender, least, most, -⟩
    exact ⟨userId, gender, least, most⟩
  · rintro ⟨userId, gender, least, most⟩
    exact ⟨trivial, trivial, userId, gender, least, most, trivial, trivial⟩

end PreferencesRow

end Rows

/-- Rows of a kind are read without loss and without repair. Exactly those that are declared and
sound are accepted, what is declared and not sound is told to be malformed, and a record keeps its
row. -/
structure IsFaithful {ρ α : Type} (decode : ρ → Except StoreError α) (declared sound : ρ → Prop)
    (keeps : ρ → α → Prop) : Prop where
  accepts : ∀ r, (∃ a, decode r = .ok a) ↔ declared r ∧ sound r
  refuses : ∀ r, declared r → ¬sound r → ∃ detail, decode r = .error (.malformed detail)
  keeps : ∀ r a, decode r = .ok a → keeps r a

theorem IsFaithful.of_reads {ρ α : Type} {decode : ρ → Except StoreError α}
    {declared sound : ρ → Prop} {keeps : ρ → α → Prop}
    (reads : ∀ r, Reads (declared r) (sound r) (keeps r) (decode r)) :
    IsFaithful decode declared sound keeps where
  accepts r := by
    have outcome := reads r
    generalize decode r = read at outcome ⊢
    cases outcome with
    | accepted isDeclared isSound => simp [isDeclared, isSound]
    | malformed unsound => simp [unsound]
    | undeclared undeclared => simp [undeclared]
  refuses r isDeclared unsound := by
    have outcome := reads r
    generalize decode r = read at outcome ⊢
    cases outcome with
    | accepted _ isSound => exact absurd isSound unsound
    | malformed => exact ⟨_, rfl⟩
    | undeclared undeclared => exact absurd isDeclared undeclared
  keeps r a read := by
    have outcome := reads r
    rw [read] at outcome
    cases outcome with
    | accepted _ _ kept => exact kept

/-- Rows of all four kinds are read faithfully. Writing the attempt or the event that is read gives
back its row, and the row that one is written as is read as it; an id that a signed word cannot hold
is malformed, and any other one is stored as it is. -/
theorem rows_are_faithful :
    (IsFaithful AttemptRow.decode AttemptRow.IsDeclared AttemptRow.IsSound fun r a =>
      AttemptRow.encode a = .ok r) ∧
    (IsFaithful EventRow.decode EventRow.IsDeclared EventRow.IsSound fun r e =>
      EventRow.encode e = .ok r) ∧
    IsFaithful ProfileRow.decode ProfileRow.IsDeclared ProfileRow.IsSound ProfileRow.Keeps ∧
    IsFaithful PreferencesRow.decode PreferencesRow.IsDeclared PreferencesRow.IsSound
      PreferencesRow.Keeps ∧
    (∀ a : Attempt, a.id < twoTo 63 → a.first < twoTo 63 → a.second < twoTo 63 →
      ∃ r, AttemptRow.encode a = .ok r ∧ r.decode = .ok a) ∧
    (∀ e : Event, e.id < twoTo 63 → e.attempt < twoTo 63 →
      ∃ r, EventRow.encode e = .ok r ∧ r.decode = .ok e) ∧
    ∀ id, (∀ stored, toId id = .ok stored → stored.toInt = id) ∧
      (twoTo 63 ≤ id →
        toId id = .error (.malformed ("id " ++ toString id ++ " out of range"))) := by
  refine ⟨.of_reads AttemptRow.reads_decode, .of_reads EventRow.reads_decode,
    .of_reads ProfileRow.reads_decode, .of_reads PreferencesRow.reads_decode, ?_, ?_, ?_⟩
  · intro a id first second
    exact AttemptRow.exists_encode id first second
  · intro e id attempt
    exact EventRow.exists_encode id attempt
  · intro id
    exact ⟨fun _ written => toInt_of_toId written, fun large => toId_of_le large⟩

/-- An attempt read and written again, and an event whose name has a capital. -/
theorem rows_are_faithful_match :
    let r : AttemptRow := ⟨some 7, some 1, some 2, some "match", some ⟨0, 0⟩⟩
    let r' : EventRow := ⟨some 8, some 7, some ⟨0, 0⟩, some "Pair_created"⟩
    (∃ a, r.decode = .ok a ∧ AttemptRow.encode a = .ok r) ∧
      ∃ detail, r'.decode = .error (.malformed detail) := by
  intro r r'
  obtain ⟨attempts, events, -⟩ := rows_are_faithful
  have sound : r.IsSound := by
    constructor <;> rintro _ ⟨⟩
    · decide
    · decide
    · decide
    · exact ⟨.matched, rfl⟩
  have unsound : ¬r'.IsSound := by
    rintro ⟨-, -, named⟩
    obtain ⟨h, same⟩ := named _ rfl
    cases h <;> simp [Happening.name] at same
  obtain ⟨a, read⟩ := (attempts.accepts r).mpr ⟨⟨rfl, rfl, rfl, rfl, rfl⟩, sound⟩
  exact ⟨⟨a, read, attempts.keeps r a read⟩, events.refuses r' ⟨rfl, rfl, rfl, rfl⟩ unsound⟩

end Database
end Matchmaking
