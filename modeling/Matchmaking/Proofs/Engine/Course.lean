import Matchmaking.Proofs.Engine.Completion
import Matchmaking.Proofs.Engine.Growth
/-! The course of an answer, from the search for the attempt to its last notification. Where the
collaborators do not fail, an answer is either refused, because no attempt waits for it, or accepted
after all that it owes has been done. -/
namespace Matchmaking

namespace Verdict

def outcome : Verdict → State
  | like => .matched
  | dislike => .mismatched

def closing : Verdict → Happening
  | like => .paired
  | dislike => .failed

theorem closing_outcome (v : Verdict) : Happening.closing v.outcome = some v.closing := by
  cases v <;> rfl

end Verdict

def Request.found? : (r : Request) → r.Reply → Option Attempt
  | pendingOfPair _ _, .ok found => found
  | _, _ => none

inductive Course
  | asking (verdict : Verdict)
  /-- The attempt is there; whose turn it is remains to see. -/
  | judging (a : Attempt) (side : Role) (verdict : Verdict)
  /-- The verdict is owed to the log. -/
  | answering (a : Attempt) (side : Role) (verdict : Verdict)
  /-- The closing event is owed. -/
  | closing (a : Attempt) (verdict : Verdict)
  /-- The move is owed. -/
  | moving (a : Attempt) (verdict : Verdict)
  /-- The match is made, the chat is owed. -/
  | matching (a : Attempt)
  /-- These sides are still to be told. -/
  | telling (a : Attempt) (kind : NoticeKind) (side : Role) (rest : List Role)
  | accepted
  | refused

namespace Course

def tell (a : Attempt) (kind : NoticeKind) : List Role → Course
  | [] => accepted
  | side :: rest => telling a kind side rest

def afterAnswering (a : Attempt) : Role → Verdict → Course
  | .first, .like => tell a .liked [.second]
  | _, verdict => closing a verdict

@[simp] theorem afterAnswering_second (a : Attempt) (verdict : Verdict) :
    afterAnswering a .second verdict = closing a verdict := by
  cases verdict <;> rfl

def afterMoving (a : Attempt) : Verdict → Course
  | .like => matching a
  | .dislike => accepted

/-- The course of a person, where a reply leads it. -/
def next (user : UserId) : Course → (r : Request) → r.Reply → Course
  | asking verdict, r, reply =>
    match r.found? reply with
    | some a => (Role.of a user).elim refused fun side => judging a side verdict
    | none => refused
  | judging a side verdict, r, reply =>
    if (r.lastSeen? reply).map (fun last => (Stage.after last).awaiting) = some (some side) then
      answering a side verdict
    else refused
  | answering a side verdict, _, _ => afterAnswering a side verdict
  | closing a verdict, _, _ => moving a verdict
  | moving a verdict, r, reply => if r.succeeds reply then afterMoving a verdict else refused
  | matching a, _, _ => tell a .matched [.second, .first]
  | telling a kind side rest, r, _ =>
    if r.isNotice then tell a kind rest else telling a kind side rest
  | accepted, _, _ => accepted
  | refused, _, _ => refused

end Course

namespace Store

variable {link : String → String} {s s₁ s' : Store} {r : Request} {reply : r.Reply}

/-- The reply may come from a store with the same people, and from a linker that does not fail. -/
structure MayReply (link : String → String) (s : Store) (r : Request) (reply : r.Reply) : Prop where
  served : ∃ s₁ s₂ : Store, s₁.profiles = s.profiles ∧ s₁.photos = s.photos ∧ s₁.Serves r reply s₂
  linked : r.IsLinked link reply

theorem MayReply.eq_reading (may : s.MayReply link r reply) (describes : r.describes)
    {told : r.Reply} (reads : s.reading? link r = some told) : reply = told := by
  obtain ⟨s₁, s₂, profiles, photos, served⟩ := may.served
  cases served <;> cases describes <;> cases reads
  · rw [profileOf?, profiles, profileOf?]
  · rw [photosOf, photos, photosOf]
  · exact may.linked

end Store

namespace Course

open Program Engine

variable {link : String → String} {s s' : Store} {user candidate : UserId} {α β : Type}

/-- A notification tells each side about the other one, as they are in that store. -/
def permits (link : String → String) (s : Store) (user candidate : UserId) :
    Course → Request → Prop
  | asking _, r => r = .pendingOfPair user candidate
  | judging a _ _, r => r = .lastEvent a.id
  | answering a side verdict, r => r = .appendEvent a.id (.swipe side verdict)
  | closing a verdict, r => r = .appendEvent a.id verdict.closing
  | moving a verdict, r => r = .finishAttempt a.id verdict.outcome
  | matching a, r => r = .createChat a.first a.second
  | telling a kind side _, r =>
    r.describes ∨ r = .ofNotice kind (s.noticeTo link a side).1 (s.noticeTo link a side).2
  | accepted, _ => False
  | refused, _ => False

def protocol (link : String → String) (s : Store) (user candidate : UserId) : Protocol Course where
  permits := permits link s user candidate
  honest := fun r reply => s.MayReply link r reply
  next := next user
  settled := (· = refused)

def Ended (user candidate : UserId) (value : α) : Course → Except MatchError α → Prop
  | accepted, .ok a => a = value
  | refused, .error e => e = .noPendingAttempt user candidate
  | _, _ => False

@[simp] theorem protocol_next : (protocol link s user candidate).next = next user := rfl

theorem next_judging (a : Attempt) (side : Role) (verdict : Verdict) (last : Option Event) :
    next user (judging a side verdict) (.lastEvent a.id) (.ok last) =
      if (Stage.after (last.map Event.happening)).awaiting = some side then
        answering a side verdict
      else refused := by
  simp only [next, Request.lastSeen?, Option.map_some, Option.some.injEq]

section Parts

variable {E : Course → Except MatchError α → Prop} {a : Attempt} {kind : NoticeKind} {side : Role}
  {rest : List Role} {verdict : Verdict}

theorem ends_reading {r : Request} {k : r.Reply → Program α} {reply : r.Reply}
    (describes : r.describes) (reads : s.reading? link r = some reply)
    (after : (k reply).Ends (protocol link s user candidate) E (telling a kind side rest)) :
    (call r k).Ends (protocol link s user candidate) E (telling a kind side rest) := by
  refine ⟨Or.inl describes, ?_⟩
  intro reply' honest
  rw [honest.eq_reading describes reads, protocol_next]
  have stays : next user (telling a kind side rest) r reply = telling a kind side rest := by
    cases r <;> first | rfl | cases describes
  rw [stays]
  exact after

theorem ends_partnerNotice (person : UserId) :
    (partnerNotice person).Ends (protocol link s user candidate)
      (brings (telling a kind side rest) (s.noticeOf link person)) (telling a kind side rest) := by
  apply ends_reading rfl rfl
  apply ends_reading rfl rfl
  dsimp only [Program.bind, expect_ok, done_bind]
  cases keys : s.photosOf person with
  | nil =>
    rw [Store.noticeOf, keys]
    exact ⟨rfl, rfl⟩
  | cons key more =>
    apply ends_reading rfl rfl
    rw [Store.noticeOf, keys]
    exact ⟨rfl, rfl⟩

theorem ends_notify (side : Role) {p : Program α}
    (after : p.Ends (protocol link s user candidate) E (tell a kind rest)) :
    (send (.ofNotice kind (s.noticeTo link a side).1 (s.noticeTo link a side).2) >>= fun _ =>
      p).Ends (protocol link s user candidate) E (telling a kind side rest) := by
  refine ⟨Or.inr rfl, ?_⟩
  intro reply _
  have told : next user (telling a kind side rest)
      (.ofNotice kind (s.noticeTo link a side).1 (s.noticeTo link a side).2) reply =
        tell a kind rest := by
    cases kind <;> rfl
  rw [protocol_next, told]
  exact after

theorem ends_append (pos : Course) {pos' : Course} {id : AttemptId} {h : Happening}
    (owed : permits link s user candidate pos (.appendEvent id h))
    (led : ∀ reply, next user pos (.appendEvent id h) reply = pos') :
    (append id h).Ends (protocol link s user candidate) (brings pos' ()) pos := by
  refine ⟨owed, ?_⟩
  intro reply honest
  obtain ⟨s₁, s₂, _, _, served⟩ := honest.served
  rw [protocol_next, led]
  cases served
  exact ⟨rfl, rfl⟩

def moved (a : Attempt) (user : UserId) (verdict : Verdict) :
    Course → Except MatchError Unit → Prop
  | pos, .ok _ => pos = afterMoving a verdict
  | pos, .error e => pos = refused ∧ e = .noPendingAttempt user (otherOf a user)

theorem ends_finish :
    (finish a user verdict.outcome).Ends (protocol link s user candidate) (moved a user verdict)
      (closing a verdict) := by
  unfold finish
  rw [verdict.closing_outcome]
  apply (ends_append (closing a verdict) rfl fun _ => rfl).go_on
  refine ⟨rfl, ?_⟩
  intro reply honest
  obtain ⟨s₁, s₂, _, _, served⟩ := honest.served
  rcases served.finish with ⟨_, rfl, _⟩ | ⟨_, rfl, _⟩
  · exact rfl
  · exact ⟨rfl, rfl⟩

end Parts

theorem otherOf_eq {a : Attempt} (joins : a.joins user candidate) :
    otherOf a user = candidate := by
  simp only [Attempt.joins, Bool.or_eq_true, Bool.and_eq_true, beq_iff_eq] at joins
  unfold otherOf
  grind

theorem ends_announceMatch {a : Attempt} :
    (announceMatch a.first a.second).Ends (protocol link s user candidate)
      (Ended user candidate ()) (tell a .matched [.second, .first]) := by
  apply (ends_partnerNotice a.first).go_on
  apply (ends_partnerNotice a.second).go_on
  apply ends_notify .second
  apply ends_notify .first
  exact rfl

/-- After the event of a verdict `settle` does all that is owed, unless another call has closed the
attempt. -/
theorem ends_settle {a : Attempt} {side : Role} {verdict : Verdict}
    (role : Role.of a user = some side) (joins : a.joins user candidate) :
    (settle a user side verdict).Ends (protocol link s user candidate) (Ended user candidate ())
      (afterAnswering a side verdict) := by
  have refusal {pos : Course} {e : MatchError} (ended : moved a user verdict pos (.error e)) :
      Ended user candidate () pos (.error e : Except MatchError Unit) := by
    obtain ⟨rfl, rfl⟩ := ended
    rw [otherOf_eq joins]
    rfl
  cases verdict with
  | dislike =>
    have closes : (finish a user .mismatched).Ends (protocol link s user candidate)
        (Ended user candidate ()) (closing a .dislike) := by
      rw [← bind_done (finish a user .mismatched)]
      refine ends_finish.bind ?_ fun pos e ended => refusal ended
      intro pos u led
      rw [show pos = accepted from led]
      exact rfl
    cases side <;> exact closes
  | like =>
    have own := Role.person_of role
    cases side with
    | first =>
      apply (ends_partnerNotice user).go_on
      rw [← own]
      apply ends_notify .second
      exact rfl
    | second =>
      refine ends_finish.bind ?_ fun pos e ended => refusal ended
      intro pos u led
      rw [show pos = matching a from led]
      refine ⟨rfl, ?_⟩
      intro reply honest
      obtain ⟨s₁, s₂, _, _, served⟩ := honest.served
      cases served
      exact ends_announceMatch

theorem ends_swipe {principal : Principal} (identified : identify principal = .ok user)
    (verdict : Verdict) :
    (Engine.swipe principal candidate verdict).Ends (protocol link s user candidate)
      (Ended user candidate ()) (asking verdict) := by
  unfold Engine.swipe asUser
  rw [identified]
  refine ⟨rfl, ?_⟩
  intro reply honest
  obtain ⟨s₁, s₂, _, _, served⟩ := honest.served
  cases served with
  | nonePending => exact rfl
  | @pendingOfPair _ _ a mem joins pending =>
    have led : next user (asking verdict) (.pendingOfPair user candidate) (.ok (some a)) =
        (Role.of a user).elim refused fun side => judging a side verdict := rfl
    rw [protocol_next, led]
    dsimp only [Program.bind, expect_ok, done_bind]
    cases role : Role.of a user with
    | none => exact rfl
    | some side =>
      rw [Option.elim_some]
      refine ⟨rfl, ?_⟩
      intro reply honest
      obtain ⟨s₁, s₂, _, _, served⟩ := honest.served
      cases served
      rw [protocol_next, next_judging]
      dsimp only [Program.bind, expect_ok, done_bind, pure_eq]
      by_cases turn : (Stage.after ((s₁.lastEvent? a.id).map Event.happening)).awaiting = some side
      · rw [if_pos turn, if_neg (not_not_intro turn)]
        apply (ends_append (answering a side verdict) rfl fun _ => rfl).go_on
        exact ends_settle role joins
      · rw [if_neg turn, if_pos turn]
        exact rfl

theorem ends_program {principal : Principal} (identified : identify principal = .ok user)
    (verdict : Verdict) (ruler : Geo.Ruler) :
    ((Call.swipe principal candidate verdict).program ruler).Ends
      (protocol link s user candidate) (Ended user candidate .recorded) (asking verdict) := by
  refine (ends_swipe identified verdict).bind ?_ ?_
  · intro pos u ended
    cases pos <;> first | exact rfl | cases ended
  · intro pos e ended
    cases pos <;> exact ended

/-- One exchange on the course of an answer, with the store before and after. -/
inductive Leads (link : String → String) (people : Store) (user candidate : UserId) (s : Store) :
    Course → Request → Course → Store → Prop
  | finds {a : Attempt} {side : Role} {verdict : Verdict} (mem : a ∈ s.attempts)
      (joins : a.joins user candidate) (pending : a.isPending) (role : Role.of a user = some side) :
      Leads link people user candidate s (asking verdict) (.pendingOfPair user candidate)
        (judging a side verdict) s
  | misses {verdict : Verdict}
      (absent : ∀ a ∈ s.attempts, a.joins user candidate → ¬a.isPending) :
      Leads link people user candidate s (asking verdict) (.pendingOfPair user candidate) refused s
  | waited {a : Attempt} {side : Role} {verdict : Verdict}
      (turn : (s.stage a.id).awaiting = some side) :
      Leads link people user candidate s (judging a side verdict) (.lastEvent a.id)
        (answering a side verdict) s
  | unawaited {a : Attempt} {side : Role} {verdict : Verdict}
      (turn : (s.stage a.id).awaiting ≠ some side) :
      Leads link people user candidate s (judging a side verdict) (.lastEvent a.id) refused s
  | answers {a : Attempt} {side : Role} {verdict : Verdict} {s' : Store}
      (tells : s.Tells a.id [.swipe side verdict] s') :
      Leads link people user candidate s (answering a side verdict)
        (.appendEvent a.id (.swipe side verdict)) (afterAnswering a side verdict) s'
  | closes {a : Attempt} {verdict : Verdict} {s' : Store}
      (tells : s.Tells a.id [verdict.closing] s') :
      Leads link people user candidate s (closing a verdict) (.appendEvent a.id verdict.closing)
        (moving a verdict) s'
  | moves {a : Attempt} {verdict : Verdict}
      (open_ : s.IsOpen a.id) :
      Leads link people user candidate s (moving a verdict) (.finishAttempt a.id verdict.outcome)
        (afterMoving a verdict) (s.setState a.id verdict.outcome)
  /-- Another call has closed the attempt. -/
  | loses {a : Attempt} {verdict : Verdict} (closed : ¬s.IsOpen a.id) :
      Leads link people user candidate s (moving a verdict) (.finishAttempt a.id verdict.outcome)
        refused s
  | chats {a : Attempt} (number : Nat) :
      Leads link people user candidate s (matching a) (.createChat a.first a.second)
        (tell a .matched [.second, .first]) (s.withChat ⟨number, a.first, a.second⟩)
  | looks {a : Attempt} {kind : NoticeKind} {side : Role} {rest : List Role} {r : Request}
      (describes : r.describes) :
      Leads link people user candidate s (telling a kind side rest) r (telling a kind side rest) s
  | tells {a : Attempt} (kind : NoticeKind) {side : Role} {rest : List Role} (delivered : Bool) :
      Leads link people user candidate s (telling a kind side rest)
        (.ofNotice kind (people.noticeTo link a side).1 (people.noticeTo link a side).2)
        (tell a kind rest) (s.recordDelivery
          ⟨kind, (people.noticeTo link a side).1, (people.noticeTo link a side).2, delivered⟩)

theorem exists_role {a : Attempt} (joins : a.joins user candidate) :
    ∃ side, Role.of a user = some side := by
  simp only [Attempt.joins, Bool.or_eq_true, Bool.and_eq_true, beq_iff_eq] at joins
  unfold Role.of
  rcases joins with ⟨first, _⟩ | ⟨_, second⟩
  · exact ⟨.first, if_pos first⟩
  · by_cases first : a.first = user
    · exact ⟨.first, if_pos first⟩
    · exact ⟨.second, by rw [if_neg first, if_pos second]⟩

/-- Wherever an answer stands, what it may ask and what a store serves are one of these. -/
theorem leads_of_serves {people : Store} {pos : Course} {r : Request} {reply : r.Reply}
    (permitted : permits link people user candidate pos r) (served : s.Serves r reply s') :
    Leads link people user candidate s pos r (next user pos r reply) s' := by
  cases pos with
  | asking verdict =>
    have asked : r = .pendingOfPair user candidate := permitted
    subst asked
    cases served with
    | @pendingOfPair _ _ a mem joins pending =>
      obtain ⟨side, role⟩ := exists_role joins
      have led : next user (asking verdict) (.pendingOfPair user candidate) (.ok (some a)) =
          judging a side verdict := by
        simp only [next, Request.found?, role, Option.elim_some]
      rw [led]
      exact .finds mem joins pending role
    | nonePending absent => exact .misses absent
  | judging a side verdict =>
    have asked : r = .lastEvent a.id := permitted
    subst asked
    cases served
    rw [next_judging]
    split
    · next turn => exact .waited turn
    · next turn => exact .unawaited turn
  | answering a side verdict =>
    have asked : r = .appendEvent a.id (.swipe side verdict) := permitted
    subst asked
    cases served with
    | appends number createdAt clock =>
      exact .answers (.withEvent s ⟨number, a.id, createdAt, .swipe side verdict⟩ clock)
  | closing a verdict =>
    have asked : r = .appendEvent a.id verdict.closing := permitted
    subst asked
    cases served with
    | appends number createdAt clock =>
      exact .closes (.withEvent s ⟨number, a.id, createdAt, verdict.closing⟩ clock)
  | moving a verdict =>
    have asked : r = .finishAttempt a.id verdict.outcome := permitted
    subst asked
    rcases served.finish with ⟨open_, rfl, rfl⟩ | ⟨absent, rfl, rfl⟩
    · exact .moves open_
    · refine .loses ?_
      rintro ⟨b, mem, same, pending⟩
      exact absent b mem same pending
  | matching a =>
    have asked : r = .createChat a.first a.second := permitted
    subst asked
    cases served with
    | createChat number => exact .chats number
  | telling a kind side rest =>
    rcases permitted with describes | asked
    · cases served <;> first | exact .looks describes | cases describes
    · subst asked
      cases kind <;> cases served
      · exact .tells .liked reply
      · exact .tells .matched reply
  | accepted => exact permitted.elim
  | refused => exact permitted.elim

/-- The way of an answer that nothing comes between, with the store at either end. -/
inductive Path (link : String → String) (people : Store) (user candidate : UserId) :
    Course → Store → Course → Store → Prop
  | stays (pos : Course) (s : Store) : Path link people user candidate pos s pos s
  | step {pos pos₁ pos' : Course} {r : Request} {s s₁ s' : Store}
      (leads : Leads link people user candidate s pos r pos₁ s₁)
      (rest : Path link people user candidate pos₁ s₁ pos' s') :
      Path link people user candidate pos s pos' s'

/-- A program that keeps its course and is run by a store comes to an end of the course. -/
theorem path_of_runs {people : Store} {E : Course → Except MatchError α → Prop} {pos : Course}
    {p : Program α} {result : Except MatchError α}
    (ends : p.Ends (protocol link people user candidate) E pos)
    (profiles : s.profiles = people.profiles) (photos : s.photos = people.photos)
    (runs : (Store.serving link).Runs s p result s') :
    ∃ pos', E pos' result ∧ Path link people user candidate pos s pos' s' := by
  induction runs generalizing pos with
  | done s a => exact ⟨pos, ends, .stays pos s⟩
  | fail s e => exact ⟨pos, ends, .stays pos s⟩
  | @call s s₁ _ _ _ reply _ served _ ih =>
    obtain ⟨serves, linked⟩ := served
    have same := serves.samePeople
    have honest : people.MayReply link _ reply := ⟨⟨s, s₁, profiles, photos, serves⟩, linked⟩
    obtain ⟨pos', ended, path⟩ :=
      ih (ends.2 reply honest) (same.profiles.trans profiles) (same.photos.trans photos)
    exact ⟨pos', ended, .step (leads_of_serves ends.1 serves) path⟩

def isOver : Course → Bool
  | accepted | refused => true
  | _ => false

namespace Path

variable {people : Store} {pos pos' : Course} {a : Attempt} {side : Role} {kind : NoticeKind}
  {rest : List Role} {verdict : Verdict}

theorem eq_of_over (stopped : pos.isOver) (path : Path link people user candidate pos s pos' s') :
    pos' = pos ∧ s' = s := by
  cases path with
  | stays => exact ⟨rfl, rfl⟩
  | step leads => cases leads <;> cases stopped

theorem begins (path : Path link people user candidate pos s pos' s') (runs : pos.isOver = false)
    (stopped : pos'.isOver) : ∃ r pos₁ s₁, Leads link people user candidate s pos r pos₁ s₁ ∧
      Path link people user candidate pos₁ s₁ pos' s' := by
  cases path with
  | stays =>
    rw [runs] at stopped
    cases stopped
  | step leads rest => exact ⟨_, _, _, leads, rest⟩

theorem tells (path : Path link people user candidate (telling a kind side rest) s pos' s')
    (stopped : pos'.isOver) : ∃ delivered, Path link people user candidate (tell a kind rest)
      (s.recordDelivery
        ⟨kind, (people.noticeTo link a side).1, (people.noticeTo link a side).2, delivered⟩)
      pos' s' := by
  generalize here : telling a kind side rest = pos at path
  induction path with
  | stays =>
    subst here
    cases stopped
  | step leads path ih =>
    subst here
    cases leads with
    | looks => exact ih stopped rfl
    | tells kind delivered => exact ⟨delivered, path⟩

/-- Nothing comes between the closing event and the move. -/
theorem closes (mem : a ∈ s.attempts) (pending : a.isPending)
    (path : Path link people user candidate (closing a verdict) s pos' s') (stopped : pos'.isOver) :
    ∃ s₁, s.Tells a.id [verdict.closing] s₁ ∧
      Path link people user candidate (afterMoving a verdict) (s₁.setState a.id verdict.outcome)
        pos' s' := by
  obtain ⟨_, _, s₁, leads, path⟩ := path.begins rfl stopped
  cases leads with
  | closes tells =>
    obtain ⟨_, _, s₂, leads, path⟩ := path.begins rfl stopped
    cases leads with
    | moves => exact ⟨s₁, tells, path⟩
    | loses closed =>
      rw [← tells.attempts] at mem
      exact absurd ⟨a, mem, rfl, pending⟩ closed

end Path

end Course
end Matchmaking
