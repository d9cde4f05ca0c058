import Matchmaking.Engine.Candidate
import Matchmaking.Engine.Showing
import Matchmaking.Attempt.Narrative
/-! The partner to show next. A proposal of the person that was shown and not yet answered comes
first, then the attempt of a liker who waits, then a fresh candidate with whom an attempt is opened.
Nothing is written for a person whose records are incomplete. -/
namespace Matchmaking

/-- The caller of the engine. Id zero is the id of no user. -/
structure Principal where
  id : UserId
  deriving DecidableEq, Repr

namespace Engine
open Program

def identify (principal : Principal) : Except MatchError UserId :=
  if principal.id = 0 then .error .unauthenticated else .ok principal.id

/-- Goes on with the id of the caller. -/
def asUser {α : Type} (principal : Principal) (run : UserId → Program α) : Program α :=
  match identify principal with
  | .ok user => run user
  | .error e => .fail e

/-- The records of the caller, which both have to be complete. -/
def completePerson (user : UserId) : Program Person := do
  let profile ← expect "can't get profile" (← send (.profile user))
  let preferences ← expect "can't get preferences" (← send (.preferences user))
  match profile, preferences with
  | some profile, some preferences =>
    let person : Person := { profile, preferences }
    if person.isComplete then return person else .fail .incompleteProfile
  | _, _ => .fail .incompleteProfile

def append (attempt : AttemptId) (happening : Happening) : Program Unit := do
  let _ ← expect "can't create pair event" (← send (.appendEvent attempt happening))

def lastHappening (attempt : AttemptId) : Program (Option Happening) := do
  let last ← expect "can't get last pair event" (← send (.lastEvent attempt))
  return last.map Event.happening

/-- Writes what is missing before the second person counts as shown to the first. -/
def completeShowing (attempt : AttemptId) (last : Option Happening) : Program Unit := do
  if last = none then append attempt .created
  if last ≠ some .shownToFirst then append attempt .shownToFirst

/-- The first of these attempts that waits for its first person. -/
def hangingAmong : List Attempt → Program (Option Showcase)
  | [] => pure none
  | a :: rest => do
    let last ← lastHappening a.id
    if Stage.after last = .awaitingFirst then
      completeShowing a.id last
      return some (← showcase a.second)
    else hangingAmong rest

/-- The second person of a proposal that waits for the user. -/
def hangingPartner (user : UserId) : Program (Option Showcase) := do
  hangingAmong (← expect "can't get pending pair attempts" (← send (.pendingOf user)))

/-- The first person of a like that waits for the user's answer. -/
def liker (user : UserId) : Program (Option Showcase) := do
  let some attempt ← expect "can't get who liked me" (← send (.likerOf user))
    | return none
  let last ← lastHappening attempt.id
  if last = some .firstLiked then append attempt.id .shownToSecond
  return some (← showcase attempt.first)

/-- Picks a candidate and opens an attempt, in at most that many rounds. A round is lost when
another call opens an attempt for the same two people first. -/
def freshPartner (ruler : Geo.Ruler) (person : Person) : Nat → Program (Option Showcase)
  | 0 => pure none
  | rounds + 1 => do
    let some candidate ← chooseCandidate ruler person
      | return none
    match ← send (.createAttempt person.profile.userId candidate) with
    | .ok attempt =>
      append attempt.id .created
      append attempt.id .shownToFirst
      return some (← showcase candidate)
    | .error (.pendingConflict _ _) => freshPartner ruler person rounds
    | .error e => .fail (.internal "can't create pair attempt" (.store e))

/-- The partner to show next, reselecting at most `retries` times. -/
def nextPartner (ruler : Geo.Ruler) (retries : Nat) (principal : Principal) : Program Showcase :=
  asUser principal fun user => do
    let person ← completePerson user
    if let some partner ← hangingPartner user then return partner
    if let some partner ← liker user then return partner
    if let some partner ← freshPartner ruler person (retries + 1) then return partner
    .fail .noCandidates

/-- How often a pick is repeated unless told otherwise. -/
def defaultRetries : Nat := 3

end Engine
end Matchmaking
