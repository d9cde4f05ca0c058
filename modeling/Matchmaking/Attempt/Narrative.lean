import Matchmaking.Attempt.Basic
/-! The story of an attempt. Its stage is read off the last event alone; which event may follow
which is a table of its own. -/
namespace Matchmaking

/-- The side of an attempt that a person is on. -/
inductive Role
  | first
  | second
  deriving DecidableEq, Repr

namespace Role

def of (a : Attempt) (user : UserId) : Option Role :=
  if a.first = user then some .first
  else if a.second = user then some .second
  else none

theorem of_first (a : Attempt) : Role.of a a.first = some .first := by simp [Role.of]

theorem of_eq_none {a : Attempt} {user : UserId} :
    Role.of a user = none ↔ a.first ≠ user ∧ a.second ≠ user := by
  unfold Role.of; split
  · simp_all
  · split <;> simp_all

def name : Role → String
  | first => "User1"
  | second => "User2"

end Role

inductive Stage
  | awaitingFirst
  | awaitingSecond
  | resolved
  deriving DecidableEq, Repr

namespace Stage

/-- The stage that the last event leaves an attempt in; without an event it is freshly created. -/
def after : Option Happening → Stage
  | none | some .created | some .shownToFirst => awaitingFirst
  | some .firstLiked | some .shownToSecond => awaitingSecond
  | some .firstDisliked | some .secondLiked | some .secondDisliked | some .paired
  | some .failed => resolved

/-- The side whose answer the attempt waits for. -/
def awaiting : Stage → Option Role
  | awaitingFirst => some .first
  | awaitingSecond => some .second
  | resolved => none

def name : Stage → String
  | awaitingFirst => "AwaitingUser1"
  | awaitingSecond => "AwaitingUser2"
  | resolved => "Resolved"

end Stage

namespace Happening

def swipe : Role → Verdict → Happening
  | .first, .like => firstLiked
  | .first, .dislike => firstDisliked
  | .second, .like => secondLiked
  | .second, .dislike => secondDisliked

/-- The event that closes the story before an attempt moves to that state. -/
def closing : State → Option Happening
  | .pending => none
  | .matched => some paired
  | .mismatched => some failed

def isTerminal : Happening → Bool
  | paired | failed => true
  | _ => false

/-- The event may stand after the given last one. The second person may answer without having
been shown the first. -/
def follows : Option Happening → Happening → Bool
  | none, created => true
  | some created, shownToFirst | some created, firstLiked | some created, firstDisliked => true
  | some shownToFirst, firstLiked | some shownToFirst, firstDisliked => true
  | some firstLiked, shownToSecond | some firstLiked, secondLiked
  | some firstLiked, secondDisliked => true
  | some shownToSecond, secondLiked | some shownToSecond, secondDisliked => true
  | some firstDisliked, failed | some secondDisliked, failed => true
  | some secondLiked, paired => true
  | _, _ => false

theorem not_follows_of_isTerminal {h : Happening} (t : h.isTerminal = true) (next : Happening) :
    follows (some h) next = false := by
  cases h <;> simp [isTerminal] at t <;> cases next <;> rfl

/-- Only the side that the stage waits for may answer. -/
theorem awaiting_of_follows_swipe {last : Option Happening} {r : Role} {v : Verdict}
    (h : follows last (swipe r v) = true) : (Stage.after last).awaiting = some r := by
  cases r <;> cases v <;> rcases last with _ | last <;> (try cases last) <;>
    simp_all [follows, swipe, Stage.after, Stage.awaiting]

def successors (last : Option Happening) : List Happening := all.filter (follows last)

@[simp] theorem mem_successors {last : Option Happening} {h : Happening} :
    h ∈ successors last ↔ follows last h = true := by simp [successors]

/-- For each event of a story, whether it may stand after the one before it, and the stage it
leads to. -/
def review : Option Happening → List Happening → List (Bool × Stage)
  | _, [] => []
  | last, h :: rest => (follows last h, Stage.after (some h)) :: review (some h) rest

end Happening
end Matchmaking
