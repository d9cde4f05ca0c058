import Matchmaking.Rehearsal.Stage
import Matchmaking.Http.Surface
/-! The run of a script: every step with its outcome and with what it changed. -/
namespace Matchmaking
namespace Rehearsal

/-- How a call ends; a dropped call has no end. -/
abbrev End (α : Type) := Option (Except MatchError α)

inductive Outcome
  /-- Nothing to tell, or the attempt that was added. -/
  | arranged (attempt : Option AttemptId)
  | next (result : End Showcase)
  | swiped (result : End Unit)
  | selected (result : End (Option UserId))
  | answered (answer : Http.Answer)
  /-- A visit that never gets an answer. -/
  | unanswered

/-- What was created or changed during a step. -/
structure Changes where
  attempts : List Attempt
  events : List Event
  chats : List Chat
  deliveries : List Delivery
  asked : List Nat

/-- What a rehearsal is set up with. -/
structure Setup where
  deck : List Nat := []
  retries : Nat := Engine.defaultRetries
  photoBase : String
  /-- The secret that access tokens are signed with. -/
  secret : String
  mac : Token.Mac
  /-- The moment shown on all clocks but that of the store. -/
  now : Timestamp

namespace Setup

def secretBytes (setup : Setup) : List UInt8 := Text.utf8 setup.secret.toList

def callerOf (setup : Setup) (headers : List Access.Header) : Option UserId :=
  Access.caller? setup.mac setup.secretBytes setup.now.seconds.toNat headers

/-- The header with a valid token of that user. -/
def credentials (setup : Setup) (user : UserId) : Access.Header :=
  (Access.headerName, Access.valueFor (Token.issue setup.mac setup.secretBytes { userId := user }))

end Setup

/-- The header that announces a body. -/
def Visit.announcement (v : Visit) : List Access.Header :=
  if v.body.isSome && v.mediaType != "" then [(Http.mediaTypeHeader, v.mediaType)] else []

def Visit.incoming (v : Visit) (setup : Setup) : Http.Incoming :=
  { method := v.method
    path := v.path
    headers := v.caller.toList.map setup.credentials ++ v.announcement ++ v.headers
    body := Text.utf8 (v.body.getD "").toList }

namespace Stage

/-- Carries the action of a visit out. Only calls of the engine have a deadline. -/
def receive (s : Stage) (setup : Setup) (v : Visit) : Outcome × Stage :=
  let action := (v.incoming setup).action .plain setup.callerOf
  match action, s.play (action.program setup.retries setup.now) with
  | .health, (none, s) => (.unanswered, s)
  | _, (result, s) => (.answered (.ofEnd result), s)

/-- The choice of a candidate for a person with both records; there is none without them. -/
def select (s : Stage) (user : UserId) : End (Option UserId) × Stage :=
  match s.store.profileOf? user, s.store.preferencesOf? user with
  | some profile, some preferences =>
    s.play (Engine.chooseCandidate Geo.ruler { profile, preferences })
  | _, _ => (some (.ok none), s)

def perform (s : Stage) (setup : Setup) : Step → Outcome × Stage
  | .arrange steps => let (id, s) := s.arrangeAll steps; (.arranged id, s)
  | .next user =>
    let (result, s) := s.play (Engine.nextPartner Geo.ruler setup.retries ⟨user⟩)
    (.next result, s)
  | .swipe user candidate verdict =>
    let (result, s) := s.play (Engine.swipe ⟨user⟩ candidate verdict)
    (.swiped result, s)
  | .select user => let (result, s) := s.select user; (.selected result, s)
  | .visit v => s.receive setup v

/-- What has changed since an earlier moment of the same stage. -/
def since (s before : Stage) : Changes :=
  let touched := s.touched.drop before.touched.length
  { attempts := s.store.attempts.filter fun a => touched.contains a.id
    events := s.store.log.drop before.store.log.length
    chats := s.store.chats.drop before.store.chats.length
    deliveries := s.store.deliveries.drop before.store.deliveries.length
    asked := s.asked.drop before.asked.length }

/-- The outcomes and changes of steps, one after the other. -/
def performAll (s : Stage) (setup : Setup) : List Step → List (Outcome × Changes)
  | [] => []
  | step :: rest =>
    let (outcome, after) := s.perform setup step
    (outcome, after.since s) :: after.performAll setup rest

end Stage

def run (setup : Setup) (steps : List Step) : List (Outcome × Changes) :=
  (Stage.opening setup.deck setup.photoBase).performAll setup steps

end Rehearsal
end Matchmaking
