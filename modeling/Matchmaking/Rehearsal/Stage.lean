import Matchmaking.Rehearsal.Script
import Matchmaking.Store.Serve
/-! The stage of a rehearsal: the store, what overrides it, the traps laid, the deck that chance
is drawn from. Programs are played on it; a call that meets a stall drops the program there, and
what was written before stays. -/
namespace Matchmaking
namespace Rehearsal

structure Stage where
  store : Store
  listing : Option (List UserId) := none
  misrouted : Option AttemptId := none
  notifierUp : Bool := true
  traps : List Trap := []
  /-- The indices that chance gives, the last one over and over. -/
  deck : List Nat := []
  photoBase : String
  /-- The counts that chance was asked an index below. -/
  asked : List Nat := []
  /-- Attempts created or changed. -/
  touched : List AttemptId := []

/-- The second that rehearsals count from, 2024-06-01T12:00:00Z. -/
def origin : Int := 1717243200

namespace Stage

def opening (deck : List Nat) (photoBase : String) : Stage :=
  { store := { clock := origin }, deck, photoBase }

def touch (s : Stage) (id : AttemptId) : Stage := { s with touched := s.touched ++ [id] }

def withStore (s : Stage) (store : Store) : Stage := { s with store }

/-- The attempt of an arrangement; without a time it is created by the clock. -/
def addAttempt (s : Stage) (first second : UserId) (state : State) (at_ : Option Int)
    (events : List Happening) : AttemptId × Stage :=
  let store := if at_.isSome then s.store else s.store.tick
  let created := at_.elim store.now fun seconds => ⟨origin + seconds, 0⟩
  let (a, store) := store.addAttempt first second state created
  (a.id, (s.withStore (store.appendEvents a.id events)).touch a.id)

def setState (s : Stage) (id : AttemptId) (state : State) : Stage :=
  if (s.store.attempt? id).isSome then (s.withStore (s.store.setState id state)).touch id else s

/-- The stage after an arrangement, and the id of an attempt that it adds. -/
def arrange (s : Stage) : Arrangement → Option AttemptId × Stage
  | .profile record => (none, s.withStore (s.store.putProfile record))
  | .preferences record => (none, s.withStore (s.store.putPreferences record))
  | .dropProfile user => (none, s.withStore (s.store.dropProfile user))
  | .dropPreferences user => (none, s.withStore (s.store.dropPreferences user))
  | .photos user keys => (none, s.withStore (s.store.putPhotos user keys))
  | .listing users => (none, { s with listing := users })
  | .attempt first second state at_ events =>
    let (id, s) := s.addAttempt first second state at_ events
    (some id, s)
  | .misroute attempt => (none, { s with misrouted := attempt })
  | .event attempt happening => (none, s.withStore (s.store.appendEvent attempt happening).2)
  | .state attempt state => (none, s.setState attempt state)
  | .notifier up => (none, { s with notifierUp := up })
  | .trap call nth effect => (none, { s with traps := s.traps ++ [⟨call, nth, effect⟩] })
  | .clear => (none, { s with traps := [] })

def arrangeAll (s : Stage) (steps : List Arrangement) : Option AttemptId × Stage :=
  steps.foldl (fun (_, s) step => s.arrange step) (none, s)

end Stage

/-- What becomes of a trap when its call is made: whether it acts, and what is left of it. -/
def Trap.sprung (t : Trap) (call : Call) : Bool × Option Trap :=
  if t.call ≠ call then (false, some t)
  else
    match t.remaining with
    | none => (true, some t)
    | some 1 => (true, none)
    | some n => (false, some { t with remaining := some (n - 1) })

namespace Effect

def stalls : Effect → Bool
  | stall => true
  | _ => false

def error? : Effect → Option StoreError
  | fail e => some e
  | _ => none

def arrangements : Effect → List Arrangement
  | rearrange steps => steps
  | _ => []

end Effect

namespace Stage

/-- The effects of the traps on a call, in the order they were laid, and the stage without the
traps used up. -/
def spring (s : Stage) (call : Call) : List Effect × Stage :=
  let acting := s.traps.filter fun t => (t.sprung call).1
  (acting.map Trap.effect, { s with traps := s.traps.filterMap fun t => (t.sprung call).2 })

def notify (s : Stage) (up : Bool) (kind : NoticeKind) (receiver : UserId) (notice : Notice) :
    Bool × Stage :=
  let (delivered, store) := s.store.notify up kind receiver notice
  (delivered, s.withStore store)

/-- The stage after a request that fails. Only a notification leaves a trace. -/
def afterRefusal (s : Stage) : Request → Stage
  | .notifyLiked u notice => (s.notify false .liked u notice).2
  | .notifyMatch u notice => (s.notify false .matched u notice).2
  | _ => s

def surroundings (s : Stage) : Surroundings :=
  { index := fun _ => s.deck.headD 0, photoBase := s.photoBase, notifierUp := s.notifierUp }

/-- The deck after one draw. -/
def drawn : List Nat → List Nat
  | _ :: b :: rest => b :: rest
  | deck => deck

/-- What a reply leaves on the stage beside the store. -/
def note (s : Stage) : (r : Request) → r.Reply → Stage
  | .createAttempt _ _, .ok a => s.touch a.id
  | .finishAttempt id _, .ok () => s.touch id
  | .index count, _ => { s with deck := drawn s.deck, asked := s.asked ++ [count] }
  | _, _ => s

def serveFromStore (s : Stage) (r : Request) : r.Reply × Stage :=
  let (reply, store) := s.store.serve s.surroundings r
  (reply, (s.withStore store).note r reply)

/-- The reply to a request on which no trap acts. -/
def serve (s : Stage) : (r : Request) → r.Reply × Stage
  | .validUsers =>
    match s.listing with
    | some users => (.ok users, s)
    | none => s.serveFromStore .validUsers
  | .pendingOfPair u v =>
    match s.misrouted with
    | some id => (.ok (s.store.attempt? id), s)
    | none => s.serveFromStore (.pendingOfPair u v)
  | r => s.serveFromStore r

/-- The reply to a request, none when the call stalls. -/
def answer (s : Stage) (r : Request) : Option r.Reply × Stage :=
  let (effects, s) := match Call.of? r with
    | some call => s.spring call
    | none => ([], s)
  let s := (s.arrangeAll (effects.flatMap Effect.arrangements)).2
  if effects.any Effect.stalls then (none, s)
  else
    let (reply, s) := match effects.findSome? Effect.error? with
      | some e => (r.refusal e, s.afterRefusal r)
      | none => s.serve r
    (some reply, s)

/-- Plays a program to its end, or to a stall. -/
def play {α : Type} (s : Stage) : Program α → Option (Except MatchError α) × Stage
  | .done a => (some (.ok a), s)
  | .fail e => (some (.error e), s)
  | .call r k =>
    match s.answer r with
    | (some reply, s) => s.play (k reply)
    | (none, s) => (none, s)

end Stage
end Rehearsal
end Matchmaking
