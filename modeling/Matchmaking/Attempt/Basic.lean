import Matchmaking.People.Profile
import Matchmaking.Time.Timestamp
/-! Pair attempts. An attempt joins two people, the first of whom is shown the second one first;
its story is told by events in an append-only log, and a state closes it. -/
namespace Matchmaking

abbrev AttemptId := Nat

/-- Where an attempt stands for good, or that it is still open. -/
inductive State
  | pending
  | matched
  | mismatched
  deriving DecidableEq, Repr

namespace State

def all : List State := [.pending, .matched, .mismatched]

def name : State → String
  | pending => "pending"
  | matched => "match"
  | mismatched => "mismatch"

def ofName? : String → Option State := ofNameIn? all name

@[simp] theorem ofName?_name (s : State) : ofName? s.name = some s := by cases s <;> decide

def parse (s : String) : Except UnknownName State :=
  (ofName? s).elim (.error ⟨"pair state", s⟩) .ok

end State

/-- What can happen to an attempt. -/
inductive Happening
  | created
  | shownToFirst
  | firstLiked
  | firstDisliked
  | shownToSecond
  | secondLiked
  | secondDisliked
  | paired
  | failed
  deriving DecidableEq, Repr

namespace Happening

/-- All happenings in the order of a story. -/
def all : List Happening :=
  [.created, .shownToFirst, .firstLiked, .firstDisliked, .shownToSecond, .secondLiked,
   .secondDisliked, .paired, .failed]

@[simp] theorem mem_all (h : Happening) : h ∈ all := by cases h <;> decide

def name : Happening → String
  | created => "pa_created"
  | shownToFirst => "sent_to_user_1"
  | firstLiked => "user_1_liked"
  | firstDisliked => "user_1_disliked"
  | shownToSecond => "sent_to_user_2"
  | secondLiked => "user_2_liked"
  | secondDisliked => "user_2_disliked"
  | paired => "pair_created"
  | failed => "pair_attempt_failed"

def ofName? : String → Option Happening := ofNameIn? all name

@[simp] theorem ofName?_name (h : Happening) : ofName? h.name = some h := by cases h <;> decide

def parse (s : String) : Except UnknownName Happening :=
  (ofName? s).elim (.error ⟨"pair event", s⟩) .ok

end Happening

/-- The answer of a person to the one shown. -/
inductive Verdict
  | like
  | dislike
  deriving DecidableEq, Repr

namespace Verdict

def all : List Verdict := [.like, .dislike]

def name : Verdict → String
  | like => "like"
  | dislike => "dislike"

def ofName? : String → Option Verdict := ofNameIn? all name

@[simp] theorem ofName?_name (v : Verdict) : ofName? v.name = some v := by cases v <;> decide

end Verdict

structure Attempt where
  id : AttemptId
  first : UserId
  second : UserId
  state : State
  createdAt : Timestamp
  deriving DecidableEq, Repr

namespace Attempt

/-- The attempt joins these two, in either order. -/
def joins (a : Attempt) (u v : UserId) : Bool :=
  (a.first == u && a.second == v) || (a.first == v && a.second == u)

theorem joins_comm (a : Attempt) (u v : UserId) : a.joins u v = a.joins v u := by
  simp [joins, Bool.or_comm]

@[simp] theorem joins_people (a : Attempt) : a.joins a.first a.second := by simp [joins]

/-- Two attempts that join the same two people join each other's. -/
theorem joins_of_joins {a b : Attempt} {u v : UserId} (joins : a.joins u v)
    (joins' : b.joins u v) : b.joins a.first a.second := by
  simp only [Attempt.joins, Bool.or_eq_true, Bool.and_eq_true, beq_iff_eq] at joins joins' ⊢
  grind

def isPending (a : Attempt) : Bool := a.state == .pending

/-- Earlier in time, or at the same time and not of a greater id. -/
def precedes (a b : Attempt) : Bool :=
  if a.createdAt = b.createdAt then a.id ≤ b.id else a.createdAt ≤ b.createdAt

end Attempt

/-- An entry of the log. -/
structure Event where
  id : Nat
  attempt : AttemptId
  createdAt : Timestamp
  happening : Happening
  deriving DecidableEq, Repr

structure Chat where
  id : Nat
  first : UserId
  second : UserId
  deriving DecidableEq, Repr

/-- A stored photo with its shareable link. -/
structure Photo where
  key : String
  link : String
  deriving DecidableEq, Repr

/-- A profile as it is shown, with its photos. -/
structure Showcase where
  profile : Profile
  photos : List Photo

/-- What a notification tells about the other party. -/
structure Notice where
  name : String
  /-- The link of the first photo, empty without photos. -/
  photo : String
  deriving DecidableEq, Repr

/-- What a notification is about. -/
inductive NoticeKind
  | liked
  | matched
  deriving DecidableEq, Repr

def NoticeKind.name : NoticeKind → String
  | liked => "liked"
  | matched => "match"

end Matchmaking
