import Matchmaking.Engine.Swipe
import Matchmaking.Proofs.Engine.Protocol
/-! Where a call of the engine stands: what it has learnt that matters, and what it owes. Most
requests leave a call free; those that touch an attempt follow a fixed order, and this is the
protocol that both entry points keep. -/
namespace Matchmaking

/-- A call of the engine. -/
inductive Call
  | next (retries : Nat) (principal : Principal)
  | swipe (principal : Principal) (candidate : UserId) (verdict : Verdict)
  deriving DecidableEq

namespace Call

inductive Result
  | partner (showcase : Showcase)
  | recorded

def user : Call → UserId
  | next _ principal => principal.id
  | swipe principal _ _ => principal.id

def isSwipe : Call → Bool
  | next _ _ => false
  | swipe _ _ _ => true

def program (ruler : Geo.Ruler) : Call → Program Result
  | next retries principal => return .partner (← Engine.nextPartner ruler retries principal)
  | swipe principal candidate verdict => do
    Engine.swipe principal candidate verdict
    return .recorded

end Call

namespace Attempt

def person (a : Attempt) : Role → UserId
  | .first => a.first
  | .second => a.second

end Attempt

theorem Role.person_of {a : Attempt} {user : UserId} {side : Role}
    (h : Role.of a user = some side) : a.person side = user := by
  unfold Role.of at h
  split at h
  · next first =>
    rw [← Option.some.inj h]
    exact first
  · split at h
    · next second =>
      rw [← Option.some.inj h]
      exact second
    · simp at h

def Happening.side : Happening → Role
  | .created | .shownToFirst | .firstLiked | .firstDisliked => .first
  | .shownToSecond | .secondLiked | .secondDisliked | .paired | .failed => .second

@[simp] theorem Happening.side_swipe (side : Role) (v : Verdict) : (swipe side v).side = side := by
  cases side <;> cases v <;> rfl

@[simp] theorem Happening.isTerminal_swipe (side : Role) (v : Verdict) :
    (swipe side v).isTerminal = false := by
  cases side <;> cases v <;> rfl

theorem Happening.awaiting_of_follows {last : Option Happening} {h : Happening}
    (valid : follows last h = true) (open_ : h.isTerminal = false) :
    (Stage.after last).awaiting = some h.side := by
  rcases last with _ | last
  · cases h <;> simp_all [follows, isTerminal, Stage.after, Stage.awaiting, side]
  · cases last <;> cases h <;> simp_all [follows, isTerminal, Stage.after, Stage.awaiting, side]

theorem Happening.follows_swipe {last : Option Happening} {side : Role} (v : Verdict)
    (begun : last ≠ none) (turn : (Stage.after last).awaiting = some side) :
    follows last (swipe side v) = true := by
  rcases last with _ | last
  · exact absurd rfl begun
  · cases last <;> cases side <;> cases v <;> simp_all [Stage.after, Stage.awaiting, follows, swipe]

inductive Stance
  /-- Nothing is owed. -/
  | free
  /-- An open attempt with the candidate, and the caller's side; whose turn it is remains to see. -/
  | found (a : Attempt) (side : Role) (verdict : Verdict)
  /-- Open attempts of the caller, to be looked through. -/
  | hanging (a : Attempt) (rest : List Attempt)
  /-- An attempt whose first person likes the caller. -/
  | courted (a : Attempt)
  /-- An event is owed to the log. -/
  | writing (a : Attempt) (h : Happening)
  /-- The closing event is written, the move is owed. -/
  | moving (a : Attempt) (state : State)
  /-- The match is made by this call, the chat is owed. -/
  | matching (a : Attempt)
  /-- These sides are still to be told. -/
  | telling (a : Attempt) (kind : NoticeKind) (side : Role) (rest : List Role)

namespace Stance

def through : List Attempt → Stance
  | [] => free
  | a :: rest => hanging a rest

def tell (a : Attempt) (kind : NoticeKind) : List Role → Stance
  | [] => free
  | side :: rest => telling a kind side rest

/-- The attempt that a call is about to write of or to move. -/
def held? : Stance → Option Attempt
  | writing a _ => some a
  | moving a _ => some a
  | _ => none

def concerns : Stance → List Attempt
  | found a _ _ | courted a | writing a _ | moving a _ => [a]
  | hanging a rest => a :: rest
  | _ => []

def afterWriting (a : Attempt) : Happening → Stance
  | .created => writing a .shownToFirst
  | .shownToFirst | .shownToSecond => free
  | .firstLiked => tell a .liked [.second]
  | .firstDisliked | .secondDisliked => writing a .failed
  | .secondLiked => writing a .paired
  | .paired => moving a .matched
  | .failed => moving a .mismatched

def afterMoving (a : Attempt) : State → Stance
  | .matched => matching a
  | _ => free

def afterLooking (a : Attempt) (rest : List Attempt) : Option Happening → Stance
  | none => writing a .created
  | some .created => writing a .shownToFirst
  | some .shownToFirst => free
  | _ => through rest

end Stance

namespace Request

def isPlain : Request → Bool
  | profile _ | preferences _ | validUsers | pendingOfPair _ _ | latestOfPair _ _ | photos _
  | photoLink _ | index _ => true
  | _ => false

def describes : Request → Bool
  | profile _ | photos _ | photoLink _ => true
  | _ => false

def ofNotice : NoticeKind → UserId → Notice → Request
  | .liked, receiver, notice => notifyLiked receiver notice
  | .matched, receiver, notice => notifyMatch receiver notice

def isNotice : Request → Bool
  | notifyLiked _ _ | notifyMatch _ _ => true
  | _ => false

def lastSeen? : (r : Request) → r.Reply → Option (Option Happening)
  | lastEvent _, .ok last => some (last.map Event.happening)
  | _, _ => none

def succeeds : (r : Request) → r.Reply → Bool
  | appendEvent _ _, .ok _ => true
  | finishAttempt _ _, .ok _ => true
  | createChat _ _, .ok _ => true
  | _, _ => false

/-- A profile comes with the id that it was asked for. -/
def Honest : (r : Request) → r.Reply → Prop
  | profile u, .ok (some p) => p.userId = u
  | _, _ => True

def IsOwed : Request → Stance → Prop
  | appendEvent id h, st => ∃ a, st = .writing a h ∧ a.id = id
  | finishAttempt id state, st => ∃ a, st = .moving a state ∧ a.id = id
  | _, _ => True

end Request

namespace Call

def noticing (c : Call) : (r : Request) → r.Reply → Stance
  | .pendingOfPair _ _, .ok (some a) =>
    match c with
    | next _ _ => .free
    | swipe principal _ verdict =>
      match Role.of a principal.id with
      | some side => .found a side verdict
      | none => .free
  | .pendingOf _, .ok as => .through as
  | .likerOf _, .ok (some a) => .courted a
  | .createAttempt _ _, .ok a => .writing a .created
  | _, _ => .free

def permits (c : Call) : Stance → Request → Prop
  | .free, r =>
    r.isPlain ∨ r = .pendingOf c.user ∨ r = .likerOf c.user ∨
      ∃ v, v ≠ c.user ∧ r = .createAttempt c.user v
  | .found a _ _, r => r = .lastEvent a.id
  | .hanging a _, r => r = .lastEvent a.id
  | .courted a, r => r = .lastEvent a.id
  | .writing a h, r => r = .appendEvent a.id h
  | .moving a state, r => r = .finishAttempt a.id state
  | .matching a, r => r = .createChat a.first a.second
  | .telling a kind side _, r => r.describes ∨ ∃ notice, r = .ofNotice kind (a.person side) notice

def after (c : Call) : Stance → (r : Request) → r.Reply → Stance
  | .free, r, reply => c.noticing r reply
  | .found a side verdict, r, reply =>
    match r.lastSeen? reply with
    | some last =>
      if (Stage.after last).awaiting = some side then .writing a (.swipe side verdict) else .free
    | none => .free
  | .hanging a rest, r, reply =>
    match r.lastSeen? reply with
    | some last => .afterLooking a rest last
    | none => .free
  | .courted a, r, reply =>
    if r.lastSeen? reply = some (some .firstLiked) then .writing a .shownToSecond else .free
  | .writing a h, r, reply => if r.succeeds reply then .afterWriting a h else .free
  | .moving a state, r, reply => if r.succeeds reply then .afterMoving a state else .free
  | .matching a, r, reply =>
    if r.succeeds reply then .tell a .matched [.second, .first] else .free
  | .telling a kind side rest, r, _ =>
    if r.isNotice then .tell a kind rest else .telling a kind side rest

theorem isOwed_of_permits {c : Call} {st : Stance} {r : Request} (permitted : c.permits st r) :
    r.IsOwed st := by
  cases st with
  | free =>
    rcases permitted with plain | rfl | rfl | ⟨v, _, rfl⟩
    · cases r <;> trivial
    all_goals trivial
  | telling a kind side rest =>
    rcases permitted with describes | ⟨notice, rfl⟩
    · cases r <;> trivial
    · cases kind <;> trivial
  | writing a h =>
    cases permitted
    exact ⟨a, rfl, rfl⟩
  | moving a state =>
    cases permitted
    exact ⟨a, rfl, rfl⟩
  | _ =>
    cases permitted
    trivial

def settles : Stance → Prop
  | .free | .telling _ _ _ _ => True
  | _ => False

def protocol (c : Call) : Protocol Stance where
  permits := c.permits
  honest := Request.Honest
  next := c.after
  settled := settles

end Call

namespace Stance

theorem mem_of_concerns_through {as : List Attempt} {b : Attempt}
    (mem : b ∈ (through as).concerns) : b ∈ as := by
  cases as <;> exact mem

theorem mem_of_concerns_afterLooking {a b : Attempt} {rest : List Attempt}
    {last : Option Happening} (mem : b ∈ (afterLooking a rest last).concerns) : b ∈ a :: rest := by
  have here (same : b ∈ [a]) : b ∈ a :: rest := by
    rw [List.mem_singleton.1 same]
    exact List.mem_cons_self
  rcases last with _ | last
  · exact here mem
  · cases last
    case created => exact here mem
    case shownToFirst => cases mem
    all_goals exact List.mem_cons_of_mem a (mem_of_concerns_through mem)

theorem mem_of_concerns_afterWriting {a b : Attempt} {h : Happening}
    (mem : b ∈ (afterWriting a h).concerns) : b ∈ [a] := by
  cases h <;> first | exact mem | cases mem

theorem not_settles_of_held {st : Stance} {a : Attempt} (held : st.held? = some a) :
    ¬Call.settles st := by
  cases st with
  | writing b h => exact fun settled => settled
  | moving b state => exact fun settled => settled
  | _ => cases held

theorem eq_of_held_afterWriting {a b : Attempt} {h : Happening}
    (held : (afterWriting a h).held? = some b) : b = a := by
  cases h <;> cases held <;> rfl

theorem held_afterWriting (a : Attempt) {h : Happening}
    (resolved : Stage.after (some h) = .resolved) : (afterWriting a h).held? = some a := by
  cases h <;> first | rfl | cases resolved

end Stance

end Matchmaking
