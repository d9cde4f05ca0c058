import Matchmaking.Attempt.Basic
/-! What can go wrong in a call of the matching engine, and in the stores it talks to. -/
namespace Matchmaking

/-- A failure of a store. -/
inductive StoreError
  /-- The two already have a pending attempt. -/
  | pendingConflict (first second : UserId)
  /-- Another call has closed the attempt. -/
  | notPending (attempt : AttemptId)
  | malformed (detail : String)
  | backend (detail : String)
  deriving DecidableEq, Repr

namespace StoreError

def message : StoreError → String
  | pendingConflict u v =>
    "pending pair attempt already exists for users " ++ toString u ++ " and " ++ toString v
  | notPending a => "pair attempt " ++ toString a ++ " is no longer pending"
  | malformed detail => "malformed stored value: " ++ detail
  | backend detail => "storage backend error: " ++ detail

def name : StoreError → String
  | pendingConflict _ _ => "PendingConflict"
  | notPending _ => "NotPending"
  | malformed _ => "Malformed"
  | backend _ => "Backend"

/-- A stored text that names nothing. -/
def ofUnknownName (e : UnknownName) : StoreError := malformed e.message

end StoreError

/-- What lies behind an internal error. -/
inductive Cause
  | store (error : StoreError)
  | missingProfile (user : UserId)
  deriving DecidableEq, Repr

def Cause.message : Cause → String
  | store e => e.message
  | missingProfile u => "profile " ++ toString u ++ " is missing"

inductive ErrorKind
  | invalidInput
  | notFound
  | permissionDenied
  | internal
  deriving DecidableEq, Repr

def ErrorKind.name : ErrorKind → String
  | invalidInput => "invalid_input"
  | notFound => "not_found"
  | permissionDenied => "permission_denied"
  | internal => "internal"

/-- How a call of the engine fails. -/
inductive MatchError
  | unauthenticated
  | incompleteProfile
  | noCandidates
  | noPendingAttempt (user candidate : UserId)
  | timedOut
  /-- A collaborator failed in the step that the context names. -/
  | internal (context : String) (cause : Cause)
  deriving DecidableEq, Repr

namespace MatchError

def kind : MatchError → ErrorKind
  | unauthenticated => .permissionDenied
  | incompleteProfile => .invalidInput
  | noCandidates | noPendingAttempt _ _ => .notFound
  | timedOut | internal _ _ => .internal

def name : MatchError → String
  | unauthenticated => "Unauthenticated"
  | incompleteProfile => "IncompleteProfile"
  | noCandidates => "NoCandidates"
  | noPendingAttempt _ _ => "NoPendingAttempt"
  | timedOut => "TimedOut"
  | internal _ _ => "Internal"

def message : MatchError → String
  | unauthenticated => "unauthenticated for this endpoint"
  | incompleteProfile => "incomplete profile"
  | noCandidates => "no candidates available, try again later"
  | noPendingAttempt user candidate =>
    "no pending pair attempt between " ++ toString user ++ " and " ++ toString candidate
  | timedOut => "request timed out"
  | internal context cause => context ++ ": " ++ cause.message

/-- What a caller is told. Details of collaborators are kept back. -/
def publicMessage : MatchError → String
  | internal _ _ => "internal error"
  | e => e.message

end MatchError
end Matchmaking
