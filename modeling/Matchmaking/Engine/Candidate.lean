import Matchmaking.Engine.Program
import Matchmaking.People.Compatibility
/-! The choice of a fresh candidate. Every user who suits the person and has no pending attempt with
them is filed by the latest attempt of the two: those never met come first, by chance; then those of
a mismatch, then those of a match, the longest ago first. -/
namespace Matchmaking

/-- The latest attempt of two people: where it stands and when it was created. -/
abbrev History := Option (State × Timestamp)

def Attempt.history (a : Attempt) : State × Timestamp := (a.state, a.createdAt)

/-- Candidates by their history with the person. -/
structure Buckets where
  fresh : List UserId := []
  rejected : List (Timestamp × UserId) := []
  matched : List (Timestamp × UserId) := []
  deriving Repr

namespace Buckets

/-- A candidate with a pending attempt is never filed. -/
def admits : History → Bool
  | some (.pending, _) => false
  | _ => true

def insert (b : Buckets) (candidate : UserId) : History → Buckets
  | none => { b with fresh := b.fresh ++ [candidate] }
  | some (.pending, _) => b
  | some (.mismatched, at_) => { b with rejected := b.rejected ++ [(at_, candidate)] }
  | some (.matched, at_) => { b with matched := b.matched ++ [(at_, candidate)] }

def size (b : Buckets) : Nat := b.fresh.length + b.rejected.length + b.matched.length

def isEmpty (b : Buckets) : Bool := b.size == 0

/-- Earlier in time, or at the same time and not of a greater id. -/
def precedes (a b : Timestamp × UserId) : Bool :=
  if a.1 = b.1 then a.2 ≤ b.2 else a.1 ≤ b.1

def oldest : List (Timestamp × UserId) → Option (Timestamp × UserId)
  | [] => none
  | a :: rest =>
    match oldest rest with
    | none => some a
    | some b => if precedes a b then some a else some b

/-- The count that the source of chance is asked for an index below. -/
def question (b : Buckets) : Option Nat := if b.fresh = [] then none else some b.fresh.length

/-- The candidate picked when chance answers that index; an index beyond the end stands for the
last one. -/
def answer (b : Buckets) (index : Nat) : Option UserId :=
  if b.fresh = [] then ((oldest b.rejected).or (oldest b.matched)).map Prod.snd
  else b.fresh[min index (b.fresh.length - 1)]?

def pick (b : Buckets) : Program (Option UserId) :=
  match b.question with
  | some count => return b.answer (← .send (.index count))
  | none => return b.answer 0

end Buckets

namespace Engine
open Program

/-- Files one valid user, if they are a candidate for the person. -/
def consider (ruler : Geo.Ruler) (person : Person) (b : Buckets) (id : UserId) : Program Buckets :=
  let user := person.profile.userId
  if id = user then pure b
  else do
    let some preferences ← expect "can't get candidate preferences" (← send (.preferences id))
      | return b
    let some profile ← expect "can't get candidate profile" (← send (.profile id))
      | return b
    let candidate : Person := { profile, preferences }
    if !candidate.isComplete || !person.suitsBy ruler candidate then return b
    let pending ← expect "can't get pending pair attempt" (← send (.pendingOfPair user id))
    if pending.isSome then return b
    let latest ← expect "can't get latest pair attempt" (← send (.latestOfPair user id))
    return b.insert id (latest.map Attempt.history)

/-- Files valid users one after the other. -/
def collect (ruler : Geo.Ruler) (person : Person) : Buckets → List UserId → Program Buckets
  | b, [] => pure b
  | b, id :: rest => do collect ruler person (← consider ruler person b id) rest

/-- A fresh candidate for a person, or none when no user is eligible. -/
def chooseCandidate (ruler : Geo.Ruler) (person : Person) : Program (Option UserId) := do
  let ids ← expect "can't get valid users" (← send .validUsers)
  (← collect ruler person {} ids).pick

end Engine
end Matchmaking
