import Matchmaking.Proofs.Outcome.Answering
import Matchmaking.Proofs.Outcome.Pursuit
/-! Calls that are sure to succeed. Every request can be served, so a call that nothing fails comes
to an end; what holds of every end that it may come to is therefore assured. The first assurance is
that of an answer: `swipe` succeeds for the side that is waited for. -/
namespace Matchmaking
namespace Store

variable {link : String → String} {faulty : Prop} {α : Type} {s s' : Store} {p : Program α}

section Ending

/-- Every request can be served. -/
theorem exists_serves (link : String → String) (s : Store) (r : Request) :
    ∃ reply s', s.Serves r reply s' ∧ s.Ranks r reply ∧ r.IsLinked link reply := by
  cases r with
  | profile u => exact ⟨_, _, .profile u, trivial, trivial⟩
  | preferences u => exact ⟨_, _, .preferences u, trivial, trivial⟩
  | validUsers => exact ⟨_, _, s.validUsers_serves, trivial, trivial⟩
  | createAttempt u v =>
    by_cases taken : ∃ a ∈ s.attempts, a.joins u v ∧ a.isPending
    · obtain ⟨a, mem, joins, pending⟩ := taken
      exact ⟨_, _, .conflicts mem joins pending, trivial, trivial⟩
    · obtain ⟨id, fresh⟩ := exists_unused Attempt.id s.attempts
      refine ⟨_, _, .opens id s.now s.clock ?_ fresh, trivial, trivial⟩
      intro a mem joins pending
      exact taken ⟨a, mem, joins, pending⟩
  | pendingOfPair u v => exact ⟨_, _, s.pendingOfPair?_serves u v, trivial, trivial⟩
  | latestOfPair u v => exact ⟨_, _, s.latestOfPair?_serves u v, trivial, trivial⟩
  | finishAttempt id state =>
    by_cases isOpen : s.IsOpen id
    · obtain ⟨a, mem, rfl, pending⟩ := isOpen
      exact ⟨_, _, .finishes state mem pending, trivial, trivial⟩
    · refine ⟨_, _, .notPending state ?_, trivial, trivial⟩
      intro a mem same pending
      exact isOpen ⟨a, mem, same, pending⟩
  | pendingOf u => exact ⟨_, _, s.pendingOf_serves u, trivial, trivial⟩
  | likerOf u => exact ⟨_, _, s.likerOf?_serves u, s.ranks_likerOf? u, trivial⟩
  | appendEvent id h =>
    obtain ⟨e, appends⟩ := s.exists_append id h
    exact ⟨_, _, appends, trivial, trivial⟩
  | lastEvent id => exact ⟨_, _, .lastEvent id, trivial, trivial⟩
  | photos u => exact ⟨_, _, .photos u, trivial, trivial⟩
  | photoLink key => exact ⟨_, _, .photoLink key (.ok (link key)), trivial, rfl⟩
  | createChat u v => exact ⟨_, _, .createChat 0 u v, trivial, trivial⟩
  | notifyLiked u notice => exact ⟨_, _, .notifyLiked u notice true, trivial, trivial⟩
  | notifyMatch u notice => exact ⟨_, _, .notifyMatch u notice true, trivial, trivial⟩
  | index count => exact ⟨_, _, .index count 0, trivial, trivial⟩
  | health => exact ⟨_, _, .health true, trivial, trivial⟩

theorem exists_ventures (link : String → String) (faulty : Prop) (s : Store) (p : Program α) :
    ∃ result s', s.Ventures link faulty p (some result) s' := by
  induction p generalizing s with
  | done a => exact ⟨_, _, .done s a⟩
  | fail e => exact ⟨_, _, .fail s e⟩
  | call r k ih =>
    obtain ⟨reply, s₁, served, ranked, linked⟩ := exists_serves link s r
    obtain ⟨result, s', rest⟩ := ih reply s₁
    exact ⟨result, s', .serves served ranked linked rest⟩

/-- Without failures the program comes to an end, and its result and the store that it leaves are
so. -/
structure Assures (link : String → String) (s : Store) (p : Program α)
    (Q : Except MatchError α → Store → Prop) : Prop where
  ends : ∃ result s', s.Ventures link False p (some result) s'
  all : ∀ {result s'}, s.Ventures link False p (some result) s' → Q result s'

theorem assures_of_all {Q : Except MatchError α → Store → Prop}
    (all : ∀ {result s'}, s.Ventures link False p (some result) s' → Q result s') :
    s.Assures link p Q := ⟨exists_ventures link False s p, all⟩

theorem Assures.mono {Q Q' : Except MatchError α → Store → Prop} (assures : s.Assures link p Q)
    (weaker : ∀ {result s'}, Q result s' → Q' result s') : s.Assures link p Q' :=
  ⟨assures.ends, fun ventures => weaker (assures.all ventures)⟩

end Ending

section Answers

variable {ruler : Geo.Ruler} {a : Attempt} {side : Role} {user candidate : UserId}
  {verdict : Verdict}

/-- A `swipe` by the side that is waited for succeeds. -/
theorem Awaits.assures_swipe (ruler : Geo.Ruler) (waits : s.Awaits a side user candidate)
    (exclusive : s.IsExclusive) (somebody : user ≠ 0) (verdict : Verdict) :
    s.Assures link ((Call.swipe ⟨user⟩ candidate verdict).program ruler) fun result s' =>
      result = .ok .recorded ∧ s.Settles link a side verdict s' := by
  refine assures_of_all fun {result _} ventures => ?_
  obtain ⟨pos, ended, answers⟩ :=
    answers_of_runs (if_neg somebody) (runs_serving.2 ventures.yields_of_ended)
  cases answers with
  | accepted waits' settles =>
    obtain rfl := waits.eq_of_joins exclusive waits'.mem waits'.joins waits'.pending
    obtain rfl := Option.some.inj (waits.role.symm.trans waits'.role)
    cases result with
    | error e => exact ended.elim
    | ok told => exact ⟨congrArg Except.ok ended, settles⟩
  | refused unawaited =>
    obtain ⟨b, mem, joins, pending, unawaited⟩ :=
      unawaited a waits.mem waits.joins waits.pending
    obtain rfl := waits.eq_of_joins exclusive mem joins pending
    exact absurd waits (unawaited side)

end Answers

end Store
end Matchmaking
