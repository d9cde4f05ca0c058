import Matchmaking.Engine.Error
/-! Calls of the engine as programs: trees of requests to collaborators, each with a continuation
for every reply. The replies are chosen from outside, so one program describes a call over a
faithful store, among other calls, cut off at any request, or among collaborators that answer
anything. -/
namespace Matchmaking

/-- What the engine asks of its collaborators. -/
inductive Request
  | profile (user : UserId)
  | preferences (user : UserId)
  /-- The people that have a profile and preferences. -/
  | validUsers
  | createAttempt (first second : UserId)
  /-- The pending attempt that joins two people. -/
  | pendingOfPair (u v : UserId)
  /-- The latest attempt that joins two people, in any state. -/
  | latestOfPair (u v : UserId)
  | finishAttempt (attempt : AttemptId) (state : State)
  /-- The pending attempts with that person first. -/
  | pendingOf (first : UserId)
  /-- The oldest pending attempt whose first person likes that second one. -/
  | likerOf (second : UserId)
  | appendEvent (attempt : AttemptId) (happening : Happening)
  | lastEvent (attempt : AttemptId)
  /-- The keys of photos in the order they are shown. -/
  | photos (user : UserId)
  | photoLink (key : String)
  | createChat (first second : UserId)
  | notifyLiked (receiver : UserId) (notice : Notice)
  | notifyMatch (receiver : UserId) (notice : Notice)
  /-- An index below a count, from the source of chance. -/
  | index (count : Nat)
  | health
  deriving DecidableEq, Repr

/-- What may come back. A notification tells only whether it was delivered. -/
@[reducible] def Request.Reply : Request → Type
  | profile _ => Except StoreError (Option Profile)
  | preferences _ => Except StoreError (Option Preferences)
  | validUsers => Except StoreError (List UserId)
  | createAttempt _ _ => Except StoreError Attempt
  | pendingOfPair _ _ => Except StoreError (Option Attempt)
  | latestOfPair _ _ => Except StoreError (Option Attempt)
  | finishAttempt _ _ => Except StoreError Unit
  | pendingOf _ => Except StoreError (List Attempt)
  | likerOf _ => Except StoreError (Option Attempt)
  | appendEvent _ _ => Except StoreError Event
  | lastEvent _ => Except StoreError (Option Event)
  | photos _ => Except StoreError (List String)
  | photoLink _ => Except StoreError String
  | createChat _ _ => Except StoreError Chat
  | notifyLiked _ _ => Bool
  | notifyMatch _ _ => Bool
  | index _ => Nat
  | health => Bool

/-- The reply when the collaborator fails. A source of chance has no way to fail and gives zero. -/
def Request.refusal (e : StoreError) : (r : Request) → r.Reply
  | profile _ => .error e
  | preferences _ => .error e
  | validUsers => .error e
  | createAttempt _ _ => .error e
  | pendingOfPair _ _ => .error e
  | latestOfPair _ _ => .error e
  | finishAttempt _ _ => .error e
  | pendingOf _ => .error e
  | likerOf _ => .error e
  | appendEvent _ _ => .error e
  | lastEvent _ => .error e
  | photos _ => .error e
  | photoLink _ => .error e
  | createChat _ _ => .error e
  | notifyLiked _ _ => false
  | notifyMatch _ _ => false
  | index _ => (0 : Nat)
  | health => false

inductive Program (α : Type) : Type
  | done (value : α)
  | fail (error : MatchError)
  | call (request : Request) (next : request.Reply → Program α)

namespace Program

protected def bind {α β : Type} : Program α → (α → Program β) → Program β
  | done a, f => f a
  | fail e, _ => fail e
  | call r k, f => call r fun reply => (k reply).bind f

instance : Monad Program where
  pure := done
  bind := Program.bind

variable {α β γ : Type}

@[simp] theorem pure_eq (a : α) : (pure a : Program α) = done a := rfl

@[simp] theorem done_bind (a : α) (f : α → Program β) : done a >>= f = f a := rfl

@[simp] theorem fail_bind (e : MatchError) (f : α → Program β) : fail e >>= f = fail e := rfl

@[simp] theorem call_bind (r : Request) (k : r.Reply → Program α) (f : α → Program β) :
    call r k >>= f = call r fun reply => k reply >>= f := rfl

theorem bind_done (p : Program α) : p >>= done = p := by
  induction p with
  | done a => rfl
  | fail e => rfl
  | call r k ih => simp only [call_bind, ih]

theorem bind_assoc (p : Program α) (f : α → Program β) (g : β → Program γ) :
    p >>= f >>= g = p >>= fun a => f a >>= g := by
  induction p with
  | done a => rfl
  | fail e => rfl
  | call r k ih => simp only [call_bind, ih]

/-- Sends a request and gives back its reply. -/
def send (r : Request) : Program r.Reply := call r done

@[simp] theorem send_bind (r : Request) (f : r.Reply → Program β) : send r >>= f = call r f := rfl

/-- The value of a reply; a failure ends the call and names the step that asked. -/
def expect (context : String) : Except StoreError α → Program α
  | .ok a => done a
  | .error e => fail (.internal context (.store e))

@[simp] theorem expect_ok (context : String) (a : α) : expect context (.ok a) = done a := rfl

@[simp] theorem expect_error (context : String) (e : StoreError) :
    (expect context (.error e) : Program α) = fail (.internal context (.store e)) := rfl

end Program
end Matchmaking
