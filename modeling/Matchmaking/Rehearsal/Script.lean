import Matchmaking.Engine.Program
import Matchmaking.Access.Bearer
/-! Scripts for a rehearsal of the service: what is arranged on the stage, the traps laid on calls
of collaborators, and the calls made by people and over HTTP. -/
namespace Matchmaking
namespace Rehearsal

/-- The calls of collaborators that a trap can be laid on. -/
inductive Call
  | profile
  | preferences
  | validUsers
  | createAttempt
  | pendingOfPair
  | latestOfPair
  | finishAttempt
  | pendingOf
  | likerOf
  | appendEvent
  | lastEvent
  | photos
  | createChat
  | notifyLiked
  | notifyMatch
  | health
  deriving DecidableEq, Repr

namespace Call

def all : List Call :=
  [profile, preferences, validUsers, createAttempt, pendingOfPair, latestOfPair, finishAttempt,
   pendingOf, likerOf, appendEvent, lastEvent, photos, createChat, notifyLiked, notifyMatch, health]

def name : Call → String
  | profile => "get_profile"
  | preferences => "get_preferences"
  | validUsers => "get_all_valid_user_ids"
  | createAttempt => "create_pair_attempt"
  | pendingOfPair => "get_pending_pair_attempt_by_user_pair"
  | latestOfPair => "get_latest_pair_attempt_by_user_pair"
  | finishAttempt => "finish_pair_attempt"
  | pendingOf => "get_pending_pair_attempts"
  | likerOf => "get_who_liked_me"
  | appendEvent => "create_event"
  | lastEvent => "get_last_event"
  | photos => "get_user_photos"
  | createChat => "create_chat"
  | notifyLiked => "notify_liked"
  | notifyMatch => "notify_match"
  | health => "health_check"

def ofName? : String → Option Call := ofNameIn? all name

@[simp] theorem ofName?_name (c : Call) : ofName? c.name = some c := by cases c <;> decide

/-- The call that a request makes. Photo links and chance are out of reach of traps. -/
def of? : Request → Option Call
  | .profile _ => some profile
  | .preferences _ => some preferences
  | .validUsers => some validUsers
  | .createAttempt _ _ => some createAttempt
  | .pendingOfPair _ _ => some pendingOfPair
  | .latestOfPair _ _ => some latestOfPair
  | .finishAttempt _ _ => some finishAttempt
  | .pendingOf _ => some pendingOf
  | .likerOf _ => some likerOf
  | .appendEvent _ _ => some appendEvent
  | .lastEvent _ => some lastEvent
  | .photos _ => some photos
  | .createChat _ _ => some createChat
  | .notifyLiked _ _ => some notifyLiked
  | .notifyMatch _ _ => some notifyMatch
  | .health => some health
  | .photoLink _ | .index _ => none

end Call

mutual

/-- Something arranged on the stage. -/
inductive Arrangement
  | profile (record : Profile)
  | preferences (record : Preferences)
  | dropProfile (user : UserId)
  | dropPreferences (user : UserId)
  | photos (user : UserId) (keys : List String)
  /-- Fixes the list of valid users. -/
  | listing (users : Option (List UserId))
  /-- An attempt with its events, created at a second of the rehearsal or right now. -/
  | attempt (first second : UserId) (state : State) (at_ : Option Int) (events : List Happening)
  /-- Fixes the attempt that is found as the pending one of any two people. -/
  | misroute (attempt : Option AttemptId)
  | event (attempt : AttemptId) (happening : Happening)
  | state (attempt : AttemptId) (state : State)
  | notifier (up : Bool)
  /-- Lays a trap on every call, or on the one of that number from now on. -/
  | trap (call : Call) (nth : Option Nat) (effect : Effect)
  | clear

/-- What a trap does to a call. -/
inductive Effect
  | fail (error : StoreError)
  | stall
  /-- Arranges something just before the call. -/
  | rearrange (steps : List Arrangement)

end

structure Trap where
  call : Call
  /-- How many calls remain until it acts, for good without a number. -/
  remaining : Option Nat
  effect : Effect

/-- A request over HTTP, with a valid token of a user or with none. -/
structure Visit where
  caller : Option UserId := none
  method : String
  path : String
  headers : List Access.Header := []
  body : Option String := none
  /-- How the body is announced; not at all when empty. -/
  mediaType : String := "application/json"

inductive Step
  | arrange (steps : List Arrangement)
  | next (user : UserId)
  | swipe (user candidate : UserId) (verdict : Verdict)
  /-- The choice of a candidate alone, by the stored records of the person. -/
  | select (user : UserId)
  | visit (visit : Visit)

end Rehearsal
end Matchmaking
