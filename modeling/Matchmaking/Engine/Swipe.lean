import Matchmaking.Engine.NextPartner
/-! The answer to a partner shown. It counts only when the attempt waits for the one who answers.
A first like announces itself to the other side; any dislike closes the attempt; a second like
closes it as a match, opens a chat and tells both sides. -/
namespace Matchmaking
namespace Engine
open Program

/-- The other person of an attempt. -/
def otherOf (a : Attempt) (user : UserId) : UserId := if a.first = user then a.second else a.first

/-- Moves an attempt to its final state, unless another call has done so first. -/
def moveTo (a : Attempt) (swiper : UserId) (state : State) : Program Unit := do
  match ← send (.finishAttempt a.id state) with
  | .ok () => return ()
  | .error (.notPending _) => .fail (.noPendingAttempt swiper (otherOf a swiper))
  | .error e => .fail (.internal "can't finish pair attempt" (.store e))

/-- Writes the closing event, then moves the attempt to its final state. When another call has
done so first, nothing more is written. -/
def finish (a : Attempt) (swiper : UserId) (state : State) : Program Unit := do
  if let some closing := Happening.closing state then append a.id closing
  moveTo a swiper state

/-- Tells each of two people about the other one. Failed deliveries do not matter. -/
def announceMatch (first second : UserId) : Program Unit := do
  let aboutFirst ← partnerNotice first
  let aboutSecond ← partnerNotice second
  let _ ← send (.notifyMatch second aboutFirst)
  let _ ← send (.notifyMatch first aboutSecond)

/-- What follows the event of a verdict. -/
def settle (a : Attempt) (user : UserId) : Role → Verdict → Program Unit
  | _, .dislike => finish a user .mismatched
  | .first, .like => do
    let notice ← partnerNotice user
    let _ ← send (.notifyLiked a.second notice)
  | .second, .like => do
    finish a user .matched
    let _ ← expect "can't create chat" (← send (.createChat a.first a.second))
    announceMatch a.first a.second

/-- Records the verdict of the caller on a candidate. -/
def swipe (principal : Principal) (candidate : UserId) (verdict : Verdict) : Program Unit :=
  asUser principal fun user => do
    let refusal := MatchError.noPendingAttempt user candidate
    let some attempt ← expect "can't get pending pair attempt by user pair"
        (← send (.pendingOfPair user candidate))
      | .fail refusal
    let some role := Role.of attempt user
      | .fail refusal
    if (Stage.after (← lastHappening attempt.id)).awaiting ≠ some role then .fail refusal
    else
      append attempt.id (.swipe role verdict)
      settle attempt user role verdict

end Engine
end Matchmaking
