import Matchmaking.Engine.Program
import Matchmaking.Sorting
/-! The store in memory. People and photos are kept as told last; attempts are opened once per
pair, closed once and never forgotten; the log, the chats and the deliveries only grow. Ids count
up from one, and a clock moves on by a second for every attempt and event. -/
namespace Matchmaking

/-- A notification that was tried. -/
structure Delivery where
  kind : NoticeKind
  receiver : UserId
  notice : Notice
  delivered : Bool
  deriving DecidableEq, Repr

structure Store where
  profiles : List Profile := []
  preferences : List Preferences := []
  photos : List (UserId × List String) := []
  attempts : List Attempt := []
  log : List Event := []
  chats : List Chat := []
  deliveries : List Delivery := []
  /-- Seconds since 1970-01-01T00:00:00Z. -/
  clock : Int := 0

namespace Store

def profileOf? (s : Store) (user : UserId) : Option Profile := s.profiles.find? (·.userId == user)

def preferencesOf? (s : Store) (user : UserId) : Option Preferences :=
  s.preferences.find? (·.userId == user)

def putProfile (s : Store) (p : Profile) : Store :=
  { s with profiles := s.profiles.filter (·.userId != p.userId) ++ [p] }

@[simp] theorem profileOf?_putProfile (s : Store) (p : Profile) :
    (s.putProfile p).profileOf? p.userId = some p := by
  rw [profileOf?, putProfile, List.find?_append, List.find?_eq_none.2 (by simp)]; simp

def putPreferences (s : Store) (p : Preferences) : Store :=
  { s with preferences := s.preferences.filter (·.userId != p.userId) ++ [p] }

@[simp] theorem preferencesOf?_putPreferences (s : Store) (p : Preferences) :
    (s.putPreferences p).preferencesOf? p.userId = some p := by
  rw [preferencesOf?, putPreferences, List.find?_append, List.find?_eq_none.2 (by simp)]; simp

def dropProfile (s : Store) (user : UserId) : Store :=
  { s with profiles := s.profiles.filter (·.userId != user) }

def dropPreferences (s : Store) (user : UserId) : Store :=
  { s with preferences := s.preferences.filter (·.userId != user) }

def putPhotos (s : Store) (user : UserId) (keys : List String) : Store :=
  { s with photos := s.photos.filter (·.1 != user) ++ [(user, keys)] }

def photosOf (s : Store) (user : UserId) : List String := (s.photos.lookup user).getD []

/-- The people with both records, by ascending id. -/
def validUsers (s : Store) : List UserId :=
  Sorting.sort (fun u v => u ≤ v)
    ((s.profiles.map Profile.userId).filter fun u => (s.preferencesOf? u).isSome)

def attempt? (s : Store) (id : AttemptId) : Option Attempt := s.attempts.find? (·.id == id)

def eventsOf (s : Store) (id : AttemptId) : List Event := s.log.filter (·.attempt == id)

def lastEvent? (s : Store) (id : AttemptId) : Option Event := (s.eventsOf id).getLast?

/-- Attempts by time and id. -/
def inOrder (attempts : List Attempt) : List Attempt := Sorting.sort Attempt.precedes attempts

def latest? (attempts : List Attempt) : Option Attempt := (inOrder attempts).getLast?

def pendingOfPair? (s : Store) (u v : UserId) : Option Attempt :=
  latest? (s.attempts.filter fun a => a.joins u v && a.isPending)

def latestOfPair? (s : Store) (u v : UserId) : Option Attempt :=
  latest? (s.attempts.filter (·.joins u v))

def pendingOf (s : Store) (user : UserId) : List Attempt :=
  inOrder (s.attempts.filter fun a => a.first == user && a.isPending)

/-- The first person has liked, and nothing has come after but the showing. -/
def awaitsReply (s : Store) (a : Attempt) : Bool :=
  match (s.lastEvent? a.id).map Event.happening with
  | some .firstLiked | some .shownToSecond => true
  | _ => false

def likerOf? (s : Store) (user : UserId) : Option Attempt :=
  (inOrder (s.attempts.filter fun a => a.second == user && a.isPending && s.awaitsReply a)).head?

def tick (s : Store) : Store := { s with clock := s.clock + 1 }

@[simp] theorem attempts_tick (s : Store) : s.tick.attempts = s.attempts := rfl

@[simp] theorem log_tick (s : Store) : s.tick.log = s.log := rfl

def now (s : Store) : Timestamp := ⟨s.clock, 0⟩

/-- Adds an attempt as it is given, under the next id. -/
def addAttempt (s : Store) (first second : UserId) (state : State) (createdAt : Timestamp) :
    Attempt × Store :=
  let a : Attempt := ⟨s.attempts.length + 1, first, second, state, createdAt⟩
  (a, { s with attempts := s.attempts ++ [a] })

/-- Opens an attempt unless the two have a pending one. -/
def createAttempt (s : Store) (first second : UserId) : Except StoreError Attempt × Store :=
  if s.attempts.any fun a => a.joins first second && a.isPending then
    (.error (.pendingConflict first second), s)
  else
    let s := s.tick
    let (a, s) := s.addAttempt first second .pending s.now
    (.ok a, s)

theorem createAttempt_of_pending {s : Store} {u v : UserId}
    (h : ∃ a ∈ s.attempts, a.joins u v ∧ a.isPending) :
    s.createAttempt u v = (.error (.pendingConflict u v), s) := by
  obtain ⟨a, mem, joins, pending⟩ := h
  rw [createAttempt, if_pos (List.any_eq_true.2 ⟨a, mem, by simp [joins, pending]⟩)]

theorem attempts_createAttempt {s : Store} {u v : UserId} {a : Attempt}
    (h : (s.createAttempt u v).1 = .ok a) :
    (s.createAttempt u v).2.attempts = s.attempts ++ [a] := by
  unfold createAttempt at h ⊢
  split at h
  · simp at h
  · next free =>
    simp only [Except.ok.injEq] at h
    subst h
    rw [if_neg free]
    rfl

def setState (s : Store) (id : AttemptId) (state : State) : Store :=
  { s with attempts := s.attempts.map fun a => if a.id = id then { a with state } else a }

@[simp] theorem length_setState (s : Store) (id : AttemptId) (state : State) :
    (s.setState id state).attempts.length = s.attempts.length := by simp [setState]

/-- Moves a pending attempt to a state. -/
def finishAttempt (s : Store) (id : AttemptId) (state : State) : Except StoreError Unit × Store :=
  if (s.attempt? id).any Attempt.isPending then (.ok (), s.setState id state)
  else (.error (.notPending id), s)

theorem finishAttempt_eq_ok {s : Store} {id : AttemptId} {state : State} :
    (s.finishAttempt id state).1 = .ok () ↔ (s.attempt? id).any Attempt.isPending = true := by
  unfold finishAttempt
  split <;> simp_all

def appendEvent (s : Store) (id : AttemptId) (happening : Happening) : Event × Store :=
  let s := s.tick
  let e : Event := ⟨s.log.length + 1, id, s.now, happening⟩
  (e, { s with log := s.log ++ [e] })

theorem log_appendEvent (s : Store) (id : AttemptId) (h : Happening) :
    (s.appendEvent id h).2.log = s.log ++ [(s.appendEvent id h).1] := rfl

@[simp] theorem attempts_appendEvent (s : Store) (id : AttemptId) (h : Happening) :
    (s.appendEvent id h).2.attempts = s.attempts := rfl

theorem lastEvent?_appendEvent (s : Store) (id : AttemptId) (h : Happening) :
    (s.appendEvent id h).2.lastEvent? id = some (s.appendEvent id h).1 := by
  simp [lastEvent?, eventsOf, appendEvent]

theorem lastEvent?_appendEvent_of_ne (s : Store) {id other : AttemptId} (ne : other ≠ id)
    (h : Happening) : (s.appendEvent other h).2.lastEvent? id = s.lastEvent? id := by
  simp [lastEvent?, eventsOf, appendEvent, ne]

def appendEvents (s : Store) (id : AttemptId) (happenings : List Happening) : Store :=
  happenings.foldl (fun s h => (s.appendEvent id h).2) s

def createChat (s : Store) (first second : UserId) : Chat × Store :=
  let c : Chat := ⟨s.chats.length + 1, first, second⟩
  (c, { s with chats := s.chats ++ [c] })

@[simp] theorem chats_createChat (s : Store) (u v : UserId) :
    (s.createChat u v).2.chats = s.chats ++ [(s.createChat u v).1] := rfl

def recordDelivery (s : Store) (d : Delivery) : Store :=
  { s with deliveries := s.deliveries ++ [d] }

@[simp] theorem deliveries_recordDelivery (s : Store) (d : Delivery) :
    (s.recordDelivery d).deliveries = s.deliveries ++ [d] := rfl

end Store
end Matchmaking
