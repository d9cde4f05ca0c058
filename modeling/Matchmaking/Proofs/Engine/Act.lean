import Matchmaking.Proofs.Engine.Stance
import Matchmaking.Proofs.Store.Contract
/-! What one exchange can do. From each stance a call makes one kind of request, and the contract of
the stores tells the reply; together they leave these cases, and every fact about calls in flight
is proved case by case from them. -/
namespace Matchmaking

def Exchange.succeeds (x : Exchange) : Bool := x.request.succeeds x.reply

namespace Stance

def isIdle : Stance → Bool
  | free | telling _ _ _ _ => true
  | _ => false

def isReading : Stance → Bool
  | found _ _ _ | courted _ => true
  | _ => false

end Stance

/-- One exchange of a call, with its stance and the store before and after. -/
inductive Acts (faulty : Prop) (c : Call) (s : Store) :
    Stance → Exchange → Stance → Store → Prop
  | looks {st : Stance} {x : Exchange} (idle : st.isIdle) (quiet : ¬x.succeeds) :
      Acts faulty c s st x st s
  /-- A collaborator fails, or it is not for the call to go on. -/
  | quits {st : Stance} {x : Exchange} (cause : faulty ∨ st.isReading) (quiet : ¬x.succeeds) :
      Acts faulty c s st x .free s
  | finds {principal : Principal} {v : UserId} {verdict : Verdict} {a : Attempt} {side : Role}
      {x : Exchange} (made : c = .swipe principal v verdict) (mem : a ∈ s.attempts)
      (pending : a.isPending) (role : Role.of a principal.id = some side) (quiet : ¬x.succeeds) :
      Acts faulty c s .free x (.found a side verdict) s
  | lists {as : List Attempt} {x : Exchange}
      (all : ∀ a ∈ as, a ∈ s.attempts ∧ a.first = c.user ∧ a.isPending) (quiet : ¬x.succeeds) :
      Acts faulty c s .free x (.through as) s
  | courts {a : Attempt} {x : Exchange} (liker : s.IsLiker c.user a) (quiet : ¬x.succeeds) :
      Acts faulty c s .free x (.courted a) s
  | opens {a : Attempt} {x : Exchange} (clock : Int) (first : a.first = c.user)
      (second : a.second ≠ c.user) (pending : a.isPending)
      (free : ∀ b ∈ s.attempts, b.joins a.first a.second → ¬b.isPending)
      (fresh : ∀ b ∈ s.attempts, b.id ≠ a.id) (quiet : ¬x.succeeds) :
      Acts faulty c s .free x (.writing a .created) (s.withAttempt a clock)
  | answers {a : Attempt} {side : Role} {verdict : Verdict} {x : Exchange}
      (turn : (s.stage a.id).awaiting = some side) (quiet : ¬x.succeeds) :
      Acts faulty c s (.found a side verdict) x (.writing a (.swipe side verdict)) s
  | resumes {a : Attempt} {rest : List Attempt} {x : Exchange} (quiet : ¬x.succeeds) :
      Acts faulty c s (.hanging a rest) x (.afterLooking a rest (s.lastHappening? a.id)) s
  | shows {a : Attempt} {x : Exchange} (liked : s.lastHappening? a.id = some .firstLiked)
      (quiet : ¬x.succeeds) : Acts faulty c s (.courted a) x (.writing a .shownToSecond) s
  | writes {a : Attempt} {e : Event} (clock : Int) (about : e.attempt = a.id)
      (fresh : ∀ d ∈ s.log, d.id ≠ e.id) :
      Acts faulty c s (.writing a e.happening) ⟨.appendEvent a.id e.happening, .ok e⟩
        (.afterWriting a e.happening) (s.withEvent e clock)
  | moves {a b : Attempt} (state : State) (mem : b ∈ s.attempts) (same : b.id = a.id)
      (pending : b.isPending) :
      Acts faulty c s (.moving a state) ⟨.finishAttempt a.id state, .ok ()⟩ (.afterMoving a state)
        (s.setState a.id state)
  /-- Another call has moved the attempt. -/
  | late {a : Attempt} {state : State} {x : Exchange}
      (absent : ∀ b ∈ s.attempts, b.id = a.id → ¬b.isPending) (quiet : ¬x.succeeds) :
      Acts faulty c s (.moving a state) x .free s
  | chats {a : Attempt} {chat : Chat} (first : chat.first = a.first)
      (second : chat.second = a.second) :
      Acts faulty c s (.matching a) ⟨.createChat a.first a.second, .ok chat⟩
        (.tell a .matched [.second, .first]) (s.withChat chat)
  | tells {a : Attempt} {side : Role} {rest : List Role} {d : Delivery} {x : Exchange}
      (receiver : d.receiver = a.person side) (quiet : ¬x.succeeds) :
      Acts faulty c s (.telling a d.kind side rest) x (.tell a d.kind rest) (s.recordDelivery d)
  /-- A notification is lost. -/
  | misses {a : Attempt} {kind : NoticeKind} {side : Role} {rest : List Role} {x : Exchange}
      (fault : faulty) (quiet : ¬x.succeeds) :
      Acts faulty c s (.telling a kind side rest) x (.tell a kind rest) s

theorem Store.Serves.finish {s s' : Store} {id : AttemptId} {state : State}
    {reply : (Request.finishAttempt id state).Reply}
    (served : s.Serves (.finishAttempt id state) reply s') :
    ((∃ b ∈ s.attempts, b.id = id ∧ b.isPending) ∧ reply = .ok () ∧ s' = s.setState id state) ∨
      ((∀ b ∈ s.attempts, b.id = id → ¬b.isPending) ∧ reply = .error (.notPending id) ∧
        s' = s) := by
  cases served with
  | finishes _ mem pending => exact Or.inl ⟨⟨_, mem, rfl, pending⟩, rfl, rfl⟩
  | notPending _ absent => exact Or.inr ⟨absent, rfl, rfl⟩

namespace Acts

variable {faulty : Prop} {c : Call} {s s' : Store} {st : Stance} {r : Request} {reply : r.Reply}

theorem lastSeen_of_serves {id : AttemptId} {reply : (Request.lastEvent id).Reply}
    (served : s.Serves (.lastEvent id) reply s') :
    s = s' ∧ (Request.lastEvent id).lastSeen? reply = some (s.lastHappening? id) := by
  cases served
  exact ⟨rfl, rfl⟩

theorem of_serves_free (permitted : c.permits .free r) (served : s.Serves r reply s') :
    Acts faulty c s .free ⟨r, reply⟩ (c.after .free r reply) s' := by
  rcases permitted with plain | rfl | rfl | ⟨v, other, rfl⟩
  · cases served <;> simp only [Request.isPlain, Bool.false_eq_true] at plain
    case pendingOfPair u v a mem joins pending =>
      cases c with
      | next retries principal => exact .looks rfl Bool.false_ne_true
      | swipe principal candidate verdict =>
        cases role : Role.of a principal.id with
        | none =>
          have stays : Call.after (.swipe principal candidate verdict) .free
              (.pendingOfPair u v) (.ok (some a)) = .free := by
            simp [Call.after, Call.noticing, role]
          rw [stays]
          exact .looks rfl Bool.false_ne_true
        | some side =>
          have led : Call.after (.swipe principal candidate verdict) .free
              (.pendingOfPair u v) (.ok (some a)) = .found a side verdict := by
            simp [Call.after, Call.noticing, role]
          rw [led]
          exact .finds rfl mem pending role Bool.false_ne_true
    all_goals exact .looks rfl Bool.false_ne_true
  · cases served with
    | pendingOf all =>
      exact .lists (fun a mem => (all a).1 mem) Bool.false_ne_true
  · cases served with
    | likerOf liker _ => exact .courts liker Bool.false_ne_true
    | noLiker absent => exact .looks rfl Bool.false_ne_true
  · cases served with
    | opens id createdAt clock free fresh =>
      exact .opens clock rfl other rfl free fresh Bool.false_ne_true
    | conflicts mem joins pending =>
      exact .looks rfl Bool.false_ne_true

theorem of_serves_writing {a : Attempt} {h : Happening} {reply : (Request.appendEvent a.id h).Reply}
    (served : s.Serves (.appendEvent a.id h) reply s') :
    Acts faulty c s (.writing a h) ⟨.appendEvent a.id h, reply⟩
      (c.after (.writing a h) (.appendEvent a.id h) reply) s' := by
  cases served with
  | appends number createdAt clock fresh =>
    exact .writes (e := ⟨number, a.id, createdAt, h⟩) clock rfl fresh

theorem of_serves_moving {a : Attempt} {state : State}
    {reply : (Request.finishAttempt a.id state).Reply}
    (served : s.Serves (.finishAttempt a.id state) reply s') :
    Acts faulty c s (.moving a state) ⟨.finishAttempt a.id state, reply⟩
      (c.after (.moving a state) (.finishAttempt a.id state) reply) s' := by
  rcases served.finish with ⟨⟨b, mem, same, pending⟩, rfl, rfl⟩ | ⟨absent, rfl, rfl⟩
  · exact .moves state mem same pending
  · exact .late absent Bool.false_ne_true

theorem of_serves_telling {a : Attempt} {kind : NoticeKind} {side : Role} {rest : List Role}
    (permitted : c.permits (.telling a kind side rest) r) (served : s.Serves r reply s') :
    Acts faulty c s (.telling a kind side rest) ⟨r, reply⟩
      (c.after (.telling a kind side rest) r reply) s' := by
  rcases permitted with describes | ⟨notice, rfl⟩
  · cases served <;> simp only [Request.describes, Bool.false_eq_true] at describes
    all_goals exact .looks rfl Bool.false_ne_true
  · cases kind <;> cases served
    · exact .tells (d := ⟨.liked, a.person side, notice, reply⟩) rfl Bool.false_ne_true
    · exact .tells (d := ⟨.matched, a.person side, notice, reply⟩) rfl Bool.false_ne_true

/-- What a request does that is served by the contract. -/
theorem of_serves (permitted : c.permits st r) (served : s.Serves r reply s') :
    Acts faulty c s st ⟨r, reply⟩ (c.after st r reply) s' := by
  cases st with
  | free => exact of_serves_free permitted served
  | found a side verdict =>
    have asked : r = .lastEvent a.id := permitted
    subst asked
    obtain ⟨rfl, seen⟩ := lastSeen_of_serves served
    by_cases turn : (s.stage a.id).awaiting = some side
    · have led : c.after (.found a side verdict) (.lastEvent a.id) reply =
          .writing a (.swipe side verdict) := by
        simp only [Call.after, seen]
        exact if_pos turn
      rw [led]
      exact .answers turn Bool.false_ne_true
    · have led : c.after (.found a side verdict) (.lastEvent a.id) reply = .free := by
        simp only [Call.after, seen]
        exact if_neg turn
      rw [led]
      exact .quits (Or.inr rfl) Bool.false_ne_true
  | hanging a rest =>
    have asked : r = .lastEvent a.id := permitted
    subst asked
    obtain ⟨rfl, seen⟩ := lastSeen_of_serves served
    simp only [Call.after, seen]
    exact .resumes Bool.false_ne_true
  | courted a =>
    have asked : r = .lastEvent a.id := permitted
    subst asked
    obtain ⟨rfl, seen⟩ := lastSeen_of_serves served
    simp only [Call.after, seen, Option.some.injEq]
    split
    · next liked => exact .shows liked Bool.false_ne_true
    · exact .quits (Or.inr rfl) Bool.false_ne_true
  | writing a h =>
    have asked : r = .appendEvent a.id h := permitted
    subst asked
    exact of_serves_writing served
  | moving a state =>
    have asked : r = .finishAttempt a.id state := permitted
    subst asked
    exact of_serves_moving served
  | matching a =>
    have asked : r = .createChat a.first a.second := permitted
    subst asked
    cases served with
    | createChat number => exact .chats rfl rfl
  | telling a kind side rest => exact of_serves_telling permitted served

theorem of_refusal (permitted : c.permits st r) (e : StoreError) (fault : faulty) :
    Acts faulty c s st ⟨r, r.refusal e⟩ (c.after st r (r.refusal e)) s := by
  cases st with
  | free =>
    have still : c.after .free r (r.refusal e) = .free := by cases r <;> rfl
    rw [still]
    refine .looks rfl ?_
    rcases permitted with plain | rfl | rfl | ⟨v, other, rfl⟩
    · cases r <;> exact Bool.false_ne_true
    all_goals exact Bool.false_ne_true
  | telling a kind side rest =>
    rcases permitted with describes | ⟨notice, rfl⟩
    · cases r <;> simp only [Request.describes, Bool.false_eq_true] at describes
      all_goals exact .looks rfl Bool.false_ne_true
    · cases kind <;> exact .misses fault Bool.false_ne_true
  | found a side verdict | hanging a rest | courted a | writing a h | moving a state | matching a =>
    simp only [Call.permits] at permitted
    subst permitted
    exact .quits (Or.inl fault) Bool.false_ne_true

end Acts
end Matchmaking
