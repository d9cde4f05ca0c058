import Matchmaking.Proofs.Engine.Failure
/-! What calls write, in which order. An answer has a script, known as soon as it is known whose
turn it is; whatever the collaborators reply, it is followed from the start, and stopped short of
its end only where the call fails. -/
namespace Matchmaking

/-- A write of a call, or a notification. -/
inductive Deed
  | attempt (first second : UserId)
  | event (attempt : AttemptId) (happening : Happening)
  | state (attempt : AttemptId) (state : State)
  | chat (first second : UserId)
  | notice (kind : NoticeKind) (receiver : UserId)
  deriving DecidableEq, Repr

namespace Request

def deed? : Request → Option Deed
  | createAttempt u v => some (.attempt u v)
  | appendEvent id h => some (.event id h)
  | finishAttempt id state => some (.state id state)
  | createChat u v => some (.chat u v)
  | notifyLiked receiver _ => some (.notice .liked receiver)
  | notifyMatch receiver _ => some (.notice .matched receiver)
  | _ => none

def isLost : (r : Request) → r.Reply → Bool
  | createAttempt _ _, .error _ => true
  | appendEvent _ _, .error _ => true
  | finishAttempt _ _, .error _ => true
  | createChat _ _, .error _ => true
  | _, _ => false

abbrev Reads (r : Request) : Prop := r.deed? = none

theorem not_isLost_of_reads {r : Request} (reads : r.Reads) (reply : r.Reply) :
    ¬r.isLost reply := by
  cases r <;> first | exact Bool.false_ne_true | cases reads

theorem reads_of_isPlain (r : Request) (plain : r.isPlain) : r.Reads := by
  cases r <;> first | rfl | cases plain

end Request

def Exchange.isLost (x : Exchange) : Bool := x.request.isLost x.reply

def deeds (said : List Exchange) : List Deed := said.filterMap (·.request.deed?)

@[simp] theorem deeds_append (said said' : List Exchange) :
    deeds (said ++ said') = deeds said ++ deeds said' := List.filterMap_append

theorem deeds_eq_nil {said : List Exchange} (reads : ∀ x ∈ said, x.request.Reads) :
    deeds said = [] := List.filterMap_eq_nil_iff.2 reads

/-- All that the answer of a side to an attempt has to write, one thing after the other. -/
def script (a : Attempt) : Role → Verdict → List Deed
  | .first, .like => [.event a.id .firstLiked, .notice .liked a.second]
  | .first, .dislike =>
    [.event a.id .firstDisliked, .event a.id .failed, .state a.id .mismatched]
  | .second, .dislike =>
    [.event a.id .secondDisliked, .event a.id .failed, .state a.id .mismatched]
  | .second, .like =>
    [.event a.id .secondLiked, .event a.id .paired, .state a.id .matched,
     .chat a.first a.second, .notice .matched a.second, .notice .matched a.first]

/-- The person has been told of an attempt with the candidate, and of a last event after which it is
this side's turn, which is the person's own. -/
def HasTurn (user candidate : UserId) (said : List Exchange) (a : Attempt) (side : Role) : Prop :=
  ∃ last rest, said = ⟨.pendingOfPair user candidate, .ok (some a)⟩ ::
      ⟨.lastEvent a.id, .ok last⟩ :: rest ∧
    Role.of a user = some side ∧
    (Stage.after (last.map Event.happening)).awaiting = some side

theorem HasTurn.eq {user candidate : UserId} {said : List Exchange} {a a' : Attempt}
    {side side' : Role} (turn : HasTurn user candidate said a side)
    (turn' : HasTurn user candidate said a' side') : a = a' ∧ side = side' := by
  obtain ⟨last, rest, rfl, role, _⟩ := turn
  obtain ⟨last', rest', same, role', _⟩ := turn'
  cases same
  exact ⟨rfl, Option.some.inj (role.symm.trans role')⟩

/-- What a call still has to write. -/
inductive Agenda
  | due (script : List Deed)
  /-- Something is not confirmed. -/
  | lost

namespace Agenda

open Program Engine

variable {α β : Type} {all mid left : List Deed}

def next : Agenda → (r : Request) → r.Reply → Agenda
  | lost, _, _ => lost
  | due script, r, reply =>
    match r.deed? with
    | none => due script
    | some _ => if r.isLost reply then lost else due script.tail

def protocol : Protocol Agenda where
  permits
    | due script, r => ∀ d ∈ r.deed?, script.head? = some d
    | lost, _ => False
  honest _ _ := True
  next := next
  settled _ := True

section Next

variable {r : Request} {reply : r.Reply} {d : Deed}

theorem next_of_reads (reads : r.Reads) : protocol.next (due all) r reply = due all := by
  simp [protocol, next, reads]

theorem next_of_kept (written : r.deed? = some d) (kept : ¬r.isLost reply) :
    protocol.next (due (d :: left)) r reply = due left := by
  simp [protocol, next, written, kept]

theorem next_of_lost (gone : r.isLost reply) (pos : Agenda) :
    protocol.next pos r reply = lost := by
  cases pos with
  | lost => rfl
  | due script =>
    cases written : r.deed? with
    | none => exact absurd gone (Request.not_isLost_of_reads written reply)
    | some d => simp [protocol, next, written, gone]

end Next

/-- A program ends well with that left to write, and badly only while something is left or after
something is lost. -/
def Closes (left : List Deed) : Agenda → Except MatchError α → Prop
  | due script, .ok _ => script = left
  | due script, .error _ => script ≠ []
  | lost, .ok _ => False
  | lost, .error _ => True

abbrev Performs (all left : List Deed) (p : Program α) : Prop :=
  p.Ends protocol (Closes left) (due all)

theorem Performs.bind {p : Program α} {f : α → Program β} (first : Performs all mid p)
    (rest : ∀ a, Performs mid left (f a)) : Performs all left (p >>= f) := by
  refine Ends.bind first ?_ ?_
  · intro pos a closes
    cases pos with
    | due script =>
      have same : script = mid := closes
      rw [same]
      exact rest a
    | lost => exact closes.elim
  · intro pos e closes
    cases pos <;> exact closes

theorem ends_of_only {E : Agenda → Except MatchError α → Prop} {ok : Request → Prop}
    {p : Program α} (only : p.Only ok) (reads : ∀ r, ok r → r.Reads)
    (closes : ∀ result, E (due left) result) : p.Ends protocol E (due left) := by
  induction p with
  | done a => exact closes (.ok a)
  | fail e => exact closes (.error e)
  | call r k ih =>
    have nothing : r.Reads := reads r only.1
    refine ⟨by simp [protocol, nothing], ?_⟩
    intro reply _
    rw [next_of_reads nothing]
    exact ih reply (only.2 reply)

theorem performs_of_only {ok : Request → Prop} {p : Program α} (only : p.Only ok)
    (reads : ∀ r, ok r → r.Reads) (some_left : left ≠ []) : Performs left left p := by
  refine ends_of_only only reads ?_
  intro result
  cases result with
  | ok a => exact rfl
  | error e => exact some_left

abbrev Begins (all : List Deed) (p : Program α) : Prop :=
  p.Ends protocol (fun _ _ => True) (due all)

theorem Performs.begins {p : Program α} {f : α → Program β} (first : Performs all mid p)
    (rest : ∀ a, Begins mid (f a)) : Begins all (p >>= f) := by
  refine Ends.bind first ?_ fun _ _ _ => trivial
  intro pos a closes
  cases pos with
  | due script =>
    have same : script = mid := closes
    rw [same]
    exact rest a
  | lost => exact closes.elim

section Parts

theorem performs_append (id : AttemptId) (h : Happening) :
    Performs (.event id h :: left) left (append id h) := by
  refine ⟨?_, ?_⟩
  · intro d written
    exact written
  · intro reply _
    cases reply with
    | error e => exact trivial
    | ok event => exact rfl

theorem performs_partnerNotice (user : UserId) (some_left : left ≠ []) :
    Performs left left (partnerNotice user) :=
  performs_of_only (only_partnerNotice user) Request.reads_of_isPlain some_left

theorem performs_finish (a : Attempt) (swiper : UserId) (state : State) {closing : Happening}
    (closes : Happening.closing state = some closing) :
    Performs (.event a.id closing :: .state a.id state :: left) left (finish a swiper state) := by
  unfold finish
  rw [closes]
  refine (performs_append a.id closing).bind fun _ => ?_
  refine ⟨?_, ?_⟩
  · intro d written
    exact written
  · intro reply _
    cases reply with
    | error e => cases e <;> exact trivial
    | ok _ => exact rfl

theorem performs_announceMatch (u v : UserId) :
    Performs [.notice .matched v, .notice .matched u] [] (announceMatch u v) := by
  refine (performs_partnerNotice u (List.cons_ne_nil _ _)).bind fun aboutFirst => ?_
  refine (performs_partnerNotice v (List.cons_ne_nil _ _)).bind fun aboutSecond => ?_
  refine ⟨fun d written => written, fun _ _ => ⟨fun d written => written, fun _ _ => ?_⟩⟩
  exact rfl

/-- The event of a verdict and what follows it make up the script. -/
theorem performs_answer (a : Attempt) (user : UserId) (side : Role) (verdict : Verdict) :
    Performs (script a side verdict) []
      (append a.id (.swipe side verdict) >>= fun _ => settle a user side verdict) := by
  cases verdict with
  | dislike =>
    cases side with
    | first => exact (performs_append a.id _).bind fun _ => performs_finish a user .mismatched rfl
    | second => exact (performs_append a.id _).bind fun _ => performs_finish a user .mismatched rfl
  | like =>
    cases side with
    | first =>
      refine (performs_append a.id .firstLiked).bind fun _ => ?_
      refine (performs_partnerNotice user (List.cons_ne_nil _ _)).bind fun notice => ?_
      exact ⟨fun d written => written, fun _ _ => rfl⟩
    | second =>
      refine (performs_append a.id .secondLiked).bind fun _ => ?_
      refine (performs_finish a user .matched rfl).bind fun _ => ?_
      refine ⟨fun d written => written, ?_⟩
      intro reply _
      cases reply with
      | error e => exact trivial
      | ok chat => exact performs_announceMatch a.first a.second

end Parts

section Transcripts

variable {said before after : List Exchange} {x : Exchange} {p : Program α}
  {result : Except MatchError α} {E : Agenda → Except MatchError α → Prop}

theorem nothing_of_lost (ends : p.Ends protocol E lost) (goes : p.Goes said result) :
    said = [] := by
  cases goes with
  | done a => rfl
  | fail e => rfl
  | call rest => exact ends.1.elim

/-- What is written and what is left make up the agenda, as long as nothing is lost. -/
theorem accounts (ends : p.Ends protocol E (due all)) (goes : p.Goes said result) :
    (∃ left, protocol.after (due all) said = due left ∧ all = deeds said ++ left ∧
        ∀ x ∈ said, ¬x.isLost) ∨
      protocol.after (due all) said = lost ∧ deeds said <+: all ∧ ∃ x ∈ said, x.isLost := by
  induction goes generalizing all with
  | done a => exact Or.inl ⟨all, rfl, rfl, List.forall_mem_nil _⟩
  | fail e => exact Or.inl ⟨all, rfl, rfl, List.forall_mem_nil _⟩
  | @call r k reply said result rest ih =>
    have on : (k reply).Ends protocol E (protocol.next (due all) r reply) := ends.2 reply trivial
    have step : protocol.after (due all) (⟨r, reply⟩ :: said) =
      protocol.after (protocol.next (due all) r reply) said := rfl
    rw [step]
    cases written : r.deed? with
    | none =>
      have silent : deeds (⟨r, reply⟩ :: said) = deeds said := List.filterMap_cons_none written
      rw [next_of_reads written] at on ⊢
      rw [silent]
      rcases ih on with ⟨left, stands, split, kept⟩ | ⟨stands, partly, x, mem, gone⟩
      · exact Or.inl ⟨left, stands, split,
          List.forall_mem_cons.2 ⟨Request.not_isLost_of_reads written reply, kept⟩⟩
      · exact Or.inr ⟨stands, partly, x, List.mem_cons_of_mem _ mem, gone⟩
    | some d =>
      obtain ⟨others, rfl⟩ := List.head?_eq_some_iff.1 (ends.1 d written)
      have first : deeds (⟨r, reply⟩ :: said) = d :: deeds said := List.filterMap_cons_some written
      rw [first]
      by_cases gone : r.isLost reply
      · rw [next_of_lost gone] at on ⊢
        rw [nothing_of_lost on rest]
        exact Or.inr ⟨rfl, ⟨others, rfl⟩, _, List.mem_singleton_self _, gone⟩
      · rw [next_of_kept written gone] at on ⊢
        rcases ih on with ⟨left, stands, split, kept⟩ | ⟨stands, partly, x, mem, lost⟩
        · exact Or.inl ⟨left, stands, congrArg (d :: ·) split, List.forall_mem_cons.2 ⟨gone, kept⟩⟩
        · exact Or.inr ⟨stands, List.cons_prefix_cons.2 ⟨rfl, partly⟩, x,
            List.mem_cons_of_mem _ mem, lost⟩

theorem deeds_prefix (ends : p.Ends protocol E (due all)) (goes : p.Goes said result) :
    deeds said <+: all := by
  rcases accounts ends goes with ⟨left, _, split, _⟩ | ⟨_, partly, _⟩
  · exact ⟨left, split.symm⟩
  · exact partly

theorem nothing_after_lost (ends : p.Ends protocol E (due all))
    (goes : p.Goes (before ++ x :: after) result) (gone : x.isLost) : after = [] := by
  cases after with
  | nil => rfl
  | cons y after =>
    have longer : before ++ x :: y :: after = (before ++ [x]) ++ y :: after := by simp
    rw [longer] at goes
    have permitted := Ends.permits_of_goes ends (fun _ _ => trivial) goes
    rw [Protocol.after_append_singleton, next_of_lost gone] at permitted
    exact permitted.elim

/-- A program that has to write all of that ends well exactly if it does, and nothing is lost. -/
theorem ok_iff (performs : Performs all [] p) (goes : p.Goes said result) :
    (∃ a, result = .ok a) ↔ deeds said = all ∧ ∀ x ∈ said, ¬x.isLost := by
  have closes := Ends.of_goes performs (fun _ _ => trivial) goes
  rcases accounts performs goes with ⟨left, stands, split, kept⟩ | ⟨stands, _, x, mem, gone⟩
  · rw [stands] at closes
    cases result with
    | ok a =>
      have empty : left = [] := closes
      rw [empty, List.append_nil] at split
      exact ⟨fun _ => ⟨split.symm, kept⟩, fun _ => ⟨a, rfl⟩⟩
    | error e =>
      have something : left ≠ [] := closes
      refine ⟨nofun, ?_⟩
      intro whole
      rw [whole.1, List.self_eq_append_right] at split
      exact absurd split something
  · rw [stands] at closes
    cases result with
    | ok a => exact closes.elim
    | error e => exact ⟨nofun, fun whole => absurd gone (whole.2 x mem)⟩

/-- The exchanges write the beginning of a script and stop at the first loss; all is well exactly if
the whole script is written and nothing is lost. -/
structure Follows (all : List Deed) (said : List Exchange) (well : Prop) : Prop where
  partly : deeds said <+: all
  stops : ∀ before x after, said = before ++ x :: after → x.isLost → after = []
  well_iff : well ↔ deeds said = all ∧ ∀ x ∈ said, ¬x.isLost

theorem Performs.follows (performs : Performs all [] p) (goes : p.Goes said result) :
    Follows all said (∃ a, result = .ok a) where
  partly := deeds_prefix performs goes
  stops before x after split gone := by
    rw [split] at goes
    exact nothing_after_lost performs goes gone
  well_iff := ok_iff performs goes

theorem Follows.prepend {well : Prop} (follows : Follows all said well)
    (reads : ∀ x ∈ before, x.request.Reads) : Follows all (before ++ said) well := by
  have kept (x : Exchange) (mem : x ∈ before) : ¬x.isLost :=
    Request.not_isLost_of_reads (reads x mem) x.reply
  have written : deeds (before ++ said) = deeds said := by
    rw [deeds_append, deeds_eq_nil reads, List.nil_append]
  refine ⟨written ▸ follows.partly, ?_, ?_⟩
  · intro front x after split gone
    rcases List.append_eq_append_iff.1 split with ⟨between, _, here⟩ | ⟨between, rfl, here⟩
    · exact follows.stops between x after here gone
    · cases between with
      | nil => exact follows.stops [] x after here.symm gone
      | cons y between =>
        cases here
        exact absurd gone (kept x (by simp))
  · rw [follows.well_iff, written, List.forall_mem_append]
    exact and_congr_right fun _ => ⟨fun safe => ⟨kept, safe⟩, And.right⟩

end Transcripts

end Agenda

namespace Engine
open Program

variable {principal : Principal} {candidate : UserId} {verdict : Verdict} {said : List Exchange}
  {result : Except MatchError Unit} {a : Attempt} {side : Role}

/-- The side whose turn it is goes on with the answer; any other call fails and writes nothing. -/
theorem goes_swipe (goes : (swipe principal candidate verdict).Goes said result) :
    (∃ a side before rest, HasTurn principal.id candidate said a side ∧ said = before ++ rest ∧
        (∀ x ∈ before, x.request.Reads) ∧
        (append a.id (.swipe side verdict) >>= fun _ =>
          settle a principal.id side verdict).Goes rest result) ∨
      (∀ x ∈ said, x.request.Reads) ∧ (∃ e, result = .error e) := by
  unfold swipe asUser identify at goes
  by_cases nobody : principal.id = 0
  · rw [if_pos nobody] at goes
    obtain ⟨rfl, failed⟩ := goes.of_fail
    exact Or.inr ⟨List.forall_mem_nil _, _, failed⟩
  rw [if_neg nobody] at goes
  obtain ⟨found, after, rfl, told⟩ := Goes.of_call goes
  have first : (Request.pendingOfPair principal.id candidate).Reads := rfl
  rcases found with e | _ | a
  · obtain ⟨rfl, failed⟩ := Goes.of_fail told
    exact Or.inr ⟨List.forall_mem_singleton.2 first, _, failed⟩
  · obtain ⟨rfl, failed⟩ := Goes.of_fail told
    exact Or.inr ⟨List.forall_mem_singleton.2 first, _, failed⟩
  dsimp only [expect_ok, done_bind, Program.bind] at told
  cases role : Role.of a principal.id with
  | none =>
    rw [role] at told
    obtain ⟨rfl, failed⟩ := Goes.of_fail told
    exact Or.inr ⟨List.forall_mem_singleton.2 first, _, failed⟩
  | some side =>
    rw [role] at told
    obtain ⟨last, rest, rfl, answers⟩ := Goes.of_call told
    have reads : ∀ x ∈ ([⟨.pendingOfPair principal.id candidate, .ok (some a)⟩,
        ⟨.lastEvent a.id, last⟩] : List Exchange), x.request.Reads :=
      List.forall_mem_cons.2 ⟨first, List.forall_mem_singleton.2 rfl⟩
    cases last with
    | error e =>
      obtain ⟨rfl, failed⟩ := Goes.of_fail answers
      exact Or.inr ⟨reads, _, failed⟩
    | ok last =>
      dsimp only [pure_eq, expect_ok, done_bind, Program.bind] at answers
      split at answers
      · obtain ⟨rfl, failed⟩ := Goes.of_fail answers
        exact Or.inr ⟨reads, _, failed⟩
      · next awaits =>
        exact Or.inl ⟨a, side, _, rest, ⟨last, rest, rfl, role, Decidable.not_not.1 awaits⟩, rfl,
          reads, answers⟩

/-- Whatever the collaborators reply, an answer writes the beginning of its script, and nothing
before it is known to be the person's turn; nothing is asked for once a write is not confirmed; and
the call ends well exactly if the whole script is written and confirmed. -/
theorem swipe_follows_script {σ : Type} (collaborators : Collaborators σ) (start : σ)
    (principal : Principal) (candidate : UserId) (verdict : Verdict) :
    let run := (swipe principal candidate verdict).among collaborators start
    (∀ a side, HasTurn principal.id candidate run.said a side →
      deeds run.said <+: script a side verdict) ∧
    (deeds run.said ≠ [] → ∃ a side, HasTurn principal.id candidate run.said a side) ∧
    (∀ before x after, run.said = before ++ x :: after → x.isLost → after = []) ∧
    (run.result = .ok () ↔ ∃ a side, HasTurn principal.id candidate run.said a side ∧
      deeds run.said = script a side verdict ∧ ∀ x ∈ run.said, ¬x.isLost) := by
  intro run
  rcases goes_swipe (goes_among collaborators start _) with
    ⟨a, side, before, rest, turn, split, reads, answers⟩ | ⟨reads, e, failed⟩
  · have follows : Agenda.Follows (script a side verdict) run.said (∃ u, run.result = .ok u) := by
      have answered := (Agenda.performs_answer a principal.id side verdict).follows answers
      have whole := answered.prepend reads
      rwa [← split] at whole
    refine ⟨?_, fun _ => ⟨a, side, turn⟩, follows.stops, ?_⟩
    · intro a' side' turn'
      obtain ⟨rfl, rfl⟩ := turn.eq turn'
      exact follows.partly
    · constructor
      · intro well
        exact ⟨a, side, turn, follows.well_iff.1 ⟨(), well⟩⟩
      · rintro ⟨a', side', turn', whole⟩
        obtain ⟨rfl, rfl⟩ := turn.eq turn'
        obtain ⟨_, well⟩ := follows.well_iff.2 whole
        exact well
  · have nothing : deeds run.said = [] := deeds_eq_nil reads
    refine ⟨?_, fun something => absurd nothing something, ?_, ?_⟩
    · intro a side _
      rw [nothing]
      exact List.nil_prefix
    · intro before x after said gone
      have mem : x ∈ run.said := by
        rw [said]
        simp
      exact absurd gone (Request.not_isLost_of_reads (reads x mem) x.reply)
    · rw [failed, nothing]
      refine ⟨nofun, ?_⟩
      rintro ⟨a, side, _, whole, _⟩
      cases side <;> cases verdict <;> cases whole

theorem failed_of_heeds {α : Type} {p : Program α} {Q : Bool → α → Prop} {b : Bool} {e : MatchError}
    (heeds : p.Heeds { fails := fun _ => False } Q b) (goes : p.Goes said (.error e)) :
    ∃ x ∈ said, x.failure? ≠ none := by
  induction p generalizing b said with
  | done a => cases goes
  | fail e => exact heeds.elim
  | call r k ih =>
    obtain ⟨reply, after, rfl, rest⟩ := goes.of_call
    have here := heeds.2.2 reply fun _ _ => trivial
    split at here
    · next error raised =>
      refine ⟨_, List.mem_cons_self, fun sound => ?_⟩
      have silent : r.failure? reply = none := sound
      simp [Request.alarm?, silent] at raised
    · obtain ⟨x, mem, failed⟩ := ih reply here rest
      exact ⟨x, List.mem_cons_of_mem _ mem, failed⟩

theorem failed_of_finish {user : UserId} {state : State} {e : MatchError}
    (goes : (finish a user state).Goes said (.error e)) : ∃ x ∈ said, x.failure? ≠ none := by
  have moved {said : List Exchange} (goes : (moveTo a user state).Goes said (.error e)) :
      ∃ x ∈ said, x.failure? ≠ none := by
    obtain ⟨reply, after, rfl, rest⟩ := Goes.of_call goes
    rcases reply with failure | _
    · exact ⟨_, List.mem_cons_self, nofun⟩
    · cases rest
  unfold finish at goes
  split at goes
  · rcases goes.of_bind with ⟨first, _, after, rfl, _, rest⟩ | ⟨e, writes, failed⟩
    · obtain ⟨x, mem, failed⟩ := moved rest
      exact ⟨x, List.mem_append_right first mem, failed⟩
    · exact failed_of_heeds (b := false) (heeds_append trivial) writes
  · exact moved goes

theorem failed_of_answer {e : MatchError} (user : UserId)
    (goes : (append a.id (.swipe side verdict) >>= fun _ => settle a user side verdict).Goes said
      (.error e)) : ∃ x ∈ said, x.failure? ≠ none := by
  have news : AllowsNews { fails := fun _ => False } :=
    ⟨fun _ _ => trivial, fun _ _ => trivial, fun _ _ => trivial⟩
  rcases goes.of_bind with ⟨first, _, after, rfl, _, settles⟩ | ⟨e, writes, _⟩
  · suffices ∃ x ∈ after, x.failure? ≠ none by
      obtain ⟨x, mem, failed⟩ := this
      exact ⟨x, List.mem_append_right first mem, failed⟩
    cases verdict with
    | dislike =>
      have closes : (finish a user .mismatched).Goes after (.error e) := by
        cases side <;> exact settles
      exact failed_of_finish closes
    | like =>
      cases side with
      | first => exact failed_of_heeds (heeds_settle_first news user) settles
      | second =>
        rcases Goes.of_bind settles with ⟨closing, _, rest, rfl, _, pairs⟩ | ⟨e, closes, _⟩
        · obtain ⟨x, mem, failed⟩ := failed_of_heeds (heeds_createChat news) pairs
          exact ⟨x, List.mem_append_right closing mem, failed⟩
        · exact failed_of_finish closes
  · exact failed_of_heeds (b := false) (heeds_append trivial) writes

theorem answers_of_turn (goes : (swipe principal candidate verdict).Goes said result)
    (turn : HasTurn principal.id candidate said a side) :
    ∃ before rest, said = before ++ rest ∧ (∀ x ∈ before, x.request.Reads) ∧
      (append a.id (.swipe side verdict) >>= fun _ =>
        settle a principal.id side verdict).Goes rest result := by
  obtain ⟨last, rest, rfl, role, awaits⟩ := turn
  refine ⟨[_, _], rest, rfl, List.forall_mem_cons.2 ⟨rfl, List.forall_mem_singleton.2 rfl⟩, ?_⟩
  unfold swipe asUser identify at goes
  by_cases nobody : principal.id = 0
  · rw [if_pos nobody] at goes
    cases goes.of_fail.1
  rw [if_neg nobody] at goes
  obtain ⟨found, after, same, told⟩ := Goes.of_call goes
  cases same
  dsimp only [expect_ok, done_bind, Program.bind] at told
  rw [role] at told
  obtain ⟨seen, after, same, answers⟩ := Goes.of_call told
  cases same
  dsimp only [pure_eq, expect_ok, done_bind, Program.bind] at answers
  rwa [if_neg (not_not_intro awaits)] at answers

/-- A call whose turn it is, and that no collaborator fails, writes the whole script. -/
theorem deeds_of_turn (goes : (swipe principal candidate verdict).Goes said result)
    (turn : HasTurn principal.id candidate said a side) (sound : ∀ x ∈ said, x.failure? = none) :
    result = .ok () ∧ deeds said = script a side verdict := by
  obtain ⟨before, rest, rfl, reads, answers⟩ := answers_of_turn goes turn
  cases result with
  | error e =>
    obtain ⟨x, mem, failed⟩ := failed_of_answer principal.id answers
    exact absurd (sound x (List.mem_append_right before mem)) failed
  | ok done =>
    have performs := Agenda.performs_answer a principal.id side verdict
    rw [deeds_append, deeds_eq_nil reads]
    exact ⟨rfl, ((Agenda.ok_iff performs answers).1 ⟨(), rfl⟩).1⟩

/-- Collaborators that confirm every request, and know one attempt, which the second person has been
shown. -/
def confirming : Collaborators Unit := fun _ r =>
  (match r with
  | .profile _ | .preferences _ | .latestOfPair _ _ | .likerOf _ => .ok none
  | .validUsers | .pendingOf _ | .photos _ => .ok []
  | .createAttempt u v => .ok ⟨1, u, v, .pending, ⟨0, 0⟩⟩
  | .pendingOfPair _ _ => .ok (some ⟨1, 1, 2, .pending, ⟨0, 0⟩⟩)
  | .finishAttempt _ _ => .ok ()
  | .appendEvent id h => .ok ⟨1, id, ⟨0, 0⟩, h⟩
  | .lastEvent id => .ok (some ⟨1, id, ⟨0, 0⟩, .shownToSecond⟩)
  | .photoLink key => .ok key
  | .createChat u v => .ok ⟨1, u, v⟩
  | .notifyLiked _ _ | .notifyMatch _ _ | .health => true
  | .index _ => (0 : Nat), ())

theorem deeds_of_turn_match :
    let run := (swipe ⟨2⟩ 1 .like).among confirming ()
    run.result = .ok () ∧ deeds run.said =
      [.event 1 .secondLiked, .event 1 .paired, .state 1 .matched, .chat 1 2,
        .notice .matched 2, .notice .matched 1] := by
  intro run
  have turn : HasTurn 2 1 run.said ⟨1, 1, 2, .pending, ⟨0, 0⟩⟩ .second :=
    ⟨_, _, rfl, rfl, rfl⟩
  refine deeds_of_turn (goes_among confirming () _) turn fun x mem => ?_
  revert x
  decide

end Engine
end Matchmaking
