import Matchmaking.Proofs.Engine.Selection
import Matchmaking.Proofs.Outcome.Queue
/-! What `nextPartner` returns. Attempts that wait for the user come first, their own proposals
before the likes of others, each by age. Only when none waits is an attempt opened, with an eligible
candidate, and the call ends in `noCandidates` only when none is eligible either. -/
namespace Matchmaking

section Idle

open Program Engine

variable {link : String → String} {s s' : Store} {user : UserId}

namespace Keeper

variable {keeper : Keeper Store} {ruler : Geo.Ruler} {person : Person} {a : Attempt} {v : UserId}

structure IsLoyal (keeper : Keeper Store) (link : String → String) : Prop where
  faithful : ∀ {s r reply s'}, keeper s r reply s' → Keeper.faithful link s r reply s'

theorem faithful_isLoyal : (faithful link).IsLoyal link := ⟨id⟩

structure Opens (keeper : Keeper Store) (s : Store) (user v : UserId) (a : Attempt) (s' : Store) :
    Prop where
  first : a.first = user
  second : a.second = v
  admits : s.Admits a
  served : ∃ clock, keeper s (.createAttempt user v) (.ok a) (s.withAttempt a clock) ∧
    (s.withAttempt a clock).Tells a.id [.created, .shownToFirst] s'

theorem Opens.attempts (opens : keeper.Opens s user v a s') : s'.attempts = s.attempts ++ [a] := by
  obtain ⟨clock, _, tells⟩ := opens.served
  rw [tells.attempts, Store.attempts_withAttempt]

theorem Opens.awaits (opens : keeper.Opens s user v a s') : s'.Awaits a .first user v := by
  obtain ⟨clock, _, tells⟩ := opens.served
  obtain rfl := opens.first
  obtain rfl := opens.second
  refine ⟨?_, a.joins_people, opens.admits.pending, Role.of_first a, ?_⟩
  · simp [opens.attempts]
  · rw [Store.stage, tells.lastHappening?_append]
    rfl

section Loyal

variable (loyal : keeper.IsLoyal link)

include loyal

theorem IsLoyal.isTruthful : keeper.IsTruthful fun s => s where
  lists served := by
    obtain ⟨serves, _⟩ := loyal.faithful served
    cases serves
    exact ⟨rfl, _, rfl⟩
  idle inquiry served :=
    (loyal.faithful served).1.eq_of_plain (Request.isPlain_of_isInquiry inquiry)
  serves inquiry served := by
    obtain ⟨serves, _⟩ := loyal.faithful served
    have same := serves.eq_of_plain (Request.isPlain_of_isInquiry inquiry)
    rwa [same] at serves

theorem IsLoyal.isBound : keeper.IsBound link :=
  ⟨fun served => (loyal.faithful served).1, fun served => (loyal.faithful served).2.2⟩

theorem IsLoyal.ventures {α : Type} {p : Program α} {result : Except MatchError α}
    (runs : keeper.Runs s p result s') : s.Ventures link False p (some result) s' :=
  faithful_runs.1 (runs.mono loyal.faithful)

/-- A candidate is chosen exactly when one is eligible, and is eligible. -/
theorem Runs.eligible_of_chosen {result : Except MatchError (Option UserId)}
    (runs : keeper.Runs s (Engine.chooseCandidate ruler person) result s') :
    s' = s ∧ ∃ chosen, result = .ok chosen ∧
      (chosen = none → ∀ v, ¬s.isEligible ruler person v) ∧
      ∀ v ∈ chosen, s.isEligible ruler person v := by
  obtain ⟨ids, fs, index, listed, files, told, _⟩ := runs.chooseCandidate loyal.isTruthful
  have trails := runs.trails False
  refine ⟨trails.reads loyal.isBound only_chooseCandidate, _, told, ?_, ?_⟩
  · intro nobody v eligible
    have valid : v ∈ ids := by
      cases (loyal.faithful listed).1 with
      | validUsers all =>
        exact (all v).2 ⟨Store.profile_of_isEligible eligible,
          Store.preferences_of_isEligible eligible⟩
    have filed : v ∈ fs.map Prod.fst := by
      rw [files.filed]
      exact List.mem_filter.2 ⟨valid, eligible⟩
    obtain ⟨f, mem, _⟩ := List.mem_map.1 filed
    exact (Buckets.answer_eq_none index).1 nobody f mem (files.admits loyal.isTruthful f mem)
  · intro v found
    have filed := Buckets.mem_of_answer index found
    rw [files.filed] at filed
    exact (List.mem_filter.1 filed).2

/-- Where no attempt waits for the person, `nextPartner` comes down to `chooseCandidate`. No round
of `freshPartner` is lost, as the chosen candidate has no pending attempt with the person. -/
theorem Runs.next_of_idle {retries : Nat} {result : Except MatchError Call.Result}
    (described : s.Describes user person) (somebody : user ≠ 0) (vacant : s.IsVacant user)
    (unliked : ∀ a, ¬s.IsLiker user a)
    (runs : keeper.Runs s ((Call.next retries ⟨user⟩).program ruler) result s') :
    ∃ chosen, keeper.Runs s (Engine.chooseCandidate ruler person) (.ok chosen) s ∧
      (chosen = none ∧ result = .error .noCandidates ∧ s' = s ∨
        ∃ v a, chosen = some v ∧ keeper.Opens s user v a s' ∧
          result = (s.shown link v).map .partner) := by
  obtain ⟨shown, first, rfl⟩ := runs.of_bind_done
  have pursues := (first.trails False).nextPartner loyal.isBound
  generalize ended : some shown = outcome at pursues
  cases pursues with
  | nobody zero => exact absurd zero somebody
  | incomplete missing => exact absurd described (missing person)
  | stops cut => exact cut.1.elim
  | rests described' _ _ misses =>
    obtain rfl := described.unique described'
    cases ended
    cases misses with
    | nobody picked => exact ⟨none, .of_trails picked, Or.inl ⟨rfl, rfl, rfl⟩⟩
    | @taken v picked pending =>
      obtain ⟨_, _, told, _, eligible⟩ := (Runs.of_trails picked).eligible_of_chosen loyal
      cases told
      have taken := Store.arePending_iff.2 (pending.resolve_right id)
      exact absurd taken (Store.isEligible_iff.1 (eligible v rfl)).2.2
  | @takesUp _ a _ _ _ _ _ _ _ described' takes partly whole =>
    obtain rfl := described.unique described'
    obtain ⟨rfl, told⟩ := whole.resolve_right fun cut => cut.1
    obtain rfl := Option.some.inj (ended.trans told)
    cases takes with
    | resumes proposal own => exact absurd own (vacant _ proposal)
    | courts _ liker => exact absurd liker (unliked _)
    | opens clock _ _ own admits picked served =>
      refine ⟨some a.second, .of_trails picked, Or.inr ⟨a.second, a, rfl, ?_, rfl⟩⟩
      exact ⟨own, rfl, admits, clock, served, partly.tells⟩

end Loyal

end Keeper

end Idle

def Call.Shows (result : Except MatchError Call.Result) (v : UserId) : Prop :=
  ∃ partner, result = .ok (.partner partner) ∧ partner.profile.userId = v

namespace Store

variable {link : String → String} {ruler : Geo.Ruler} {s s₀ s' : Store} {user v : UserId}
  {person : Person} {a : Attempt} {side : Role} {calls : List Call} {retries : Nat}
  {result : Except MatchError Call.Result}

def eligible (s : Store) (ruler : Geo.Ruler) (person : Person) : Finset UserId :=
  s.validUsers.toFinset.filter fun v => s.isEligible ruler person v

/-- Of the pending attempts that wait for that side, which is the user, this one is the oldest. -/
def IsLongestWaiting (s : Store) (user : UserId) (side : Role) (a : Attempt) : Prop :=
  a ∈ s.waiting user side ∧ ∀ b ∈ s.waiting user side, a.precedes b

theorem mem_eligible : v ∈ s.eligible ruler person ↔ s.isEligible ruler person v := by
  rw [eligible, Finset.mem_filter, List.mem_toFinset, and_iff_right_iff_imp]
  intro eligible
  cases s.validUsers_serves with
  | validUsers all =>
    exact (all v).2 ⟨profile_of_isEligible eligible, preferences_of_isEligible eligible⟩

theorem waiting_first_eq_empty : s.waiting user .first = ∅ ↔ s.IsVacant user := by
  simp only [Finset.eq_empty_iff_forall_notMem, mem_waiting_first, not_and]
  rfl

theorem waiting_second_eq_empty : s.waiting user .second = ∅ ↔ ∀ a, ¬s.IsLiker user a := by
  simp only [Finset.eq_empty_iff_forall_notMem, mem_waiting_second]

theorem shows_of_known (link : String → String) (known : (s.profileOf? v).isSome) :
    Call.Shows ((s.shown link v).map .partner) v := by
  obtain ⟨partner, shown⟩ := exists_shown link known
  rw [shown]
  exact ⟨partner, rfl, userId_of_shown shown⟩

/-- What `nextPartner` meets with: a proposal of the person, an attempt in which the person is
liked, an eligible candidate, or none of these. -/
inductive Meets (s : Store) (ruler : Geo.Ruler) (person : Person) (user : UserId) :
    Except MatchError Call.Result → Store → Prop
  | resumes {a : Attempt} {result : Except MatchError Call.Result} {s' : Store}
      (longest : s.IsLongestWaiting user .first a) (shows : Call.Shows result a.second)
      (idle : s'.attempts = s.attempts) : Meets s ruler person user result s'
  | courts {a : Attempt} {result : Except MatchError Call.Result} {s' : Store}
      (vacant : s.waiting user .first = ∅) (longest : s.IsLongestWaiting user .second a)
      (shows : Call.Shows result a.first) (idle : s'.attempts = s.attempts) :
      Meets s ruler person user result s'
  | opens {a : Attempt} {result : Except MatchError Call.Result} {s' : Store}
      (vacant : s.waiting user .first = ∅) (unliked : s.waiting user .second = ∅)
      (own : a.first = user) (eligible : a.second ∈ s.eligible ruler person)
      (shows : Call.Shows result a.second) (opened : s'.attempts = s.attempts ++ [a]) :
      Meets s ruler person user result s'
  | nobody (vacant : s.waiting user .first = ∅) (unliked : s.waiting user .second = ∅)
      (none : s.eligible ruler person = ∅) : Meets s ruler person user (.error .noCandidates) s

theorem Ventures.meets_of_idle (described : s.Describes user person) (somebody : user ≠ 0)
    (vacant : s.IsVacant user) (unliked : ∀ a, ¬s.IsLiker user a)
    (ventures : s.Ventures link False ((Call.next retries ⟨user⟩).program ruler) (some result) s') :
    s.Meets ruler person user result s' := by
  have loyal : (Keeper.faithful link).IsLoyal link := Keeper.faithful_isLoyal
  have vacant' := waiting_first_eq_empty.2 vacant
  have unliked' := waiting_second_eq_empty.2 unliked
  obtain ⟨chosen, picks, ends⟩ :=
    (Keeper.faithful_runs.2 ventures).next_of_idle loyal described somebody vacant unliked
  obtain ⟨_, _, told, none, eligible⟩ := picks.eligible_of_chosen loyal
  cases told
  rcases ends with ⟨rfl, rfl, rfl⟩ | ⟨v, a, rfl, opens, rfl⟩
  · refine .nobody vacant' unliked' ?_
    simp only [Finset.eq_empty_iff_forall_notMem, mem_eligible]
    exact none rfl
  · have fit := eligible v rfl
    have shows := shows_of_known link (profile_of_isEligible fit)
    rw [← opens.second] at fit shows ⊢
    exact .opens vacant' unliked' opens.first (mem_eligible.2 fit) shows opens.attempts

/-- Every call for a partner by a person with complete records, after completed calls, is one of
these. -/
theorem Ventures.meets (books : s.Books link) (coherent : s.IsCoherent)
    (described : s.Describes user person) (somebody : user ≠ 0)
    (ventures : s.Ventures link False ((Call.next retries ⟨user⟩).program ruler) (some result) s') :
    s.Meets ruler person user result s' := by
  obtain ⟨told, pursues, same⟩ := ventures.pursues described somebody
  cases pursues with
  | rests nobody =>
    obtain ⟨⟨vacant, unliked⟩, _⟩ := nobody.resolve_right fun cut => cut.1
    exact ventures.meets_of_idle described somebody vacant unliked
  | @takesUp a owed _ v base _ _ takes partly whole =>
    obtain ⟨rfl, rfl⟩ := whole.resolve_right fun cut => cut.1
    have same := Option.some.inj same
    have idle := partly.tells.attempts
    cases takes with
    | resumes proposal own =>
      refine .resumes ⟨mem_waiting_first.2 ⟨proposal, own⟩, ?_⟩ ?_ idle
      · intro b mem
        obtain ⟨proposal', own'⟩ := mem_waiting_first.1 mem
        rw [coherent.proposals b a proposal' proposal (own'.trans own.symm)]
        exact Attempt.precedes_refl a
      · rw [same]
        exact shows_of_known link (books.known a proposal.mem .second)
    | courts vacant liker oldest =>
      refine .courts (waiting_first_eq_empty.2 vacant)
        ⟨mem_waiting_second.2 liker, ?_⟩ ?_ idle
      · intro b mem
        exact oldest b (mem_waiting_second.1 mem)
      · rw [same]
        exact shows_of_known link (books.known a liker.mem .first)
    | opens _ vacant unliked =>
      exact ventures.meets_of_idle described somebody vacant unliked

/-- What `nextPartner` returns and opens, by the attempts that wait for the person and the eligible
candidates. -/
structure Provides (s : Store) (ruler : Geo.Ruler) (person : Person) (user : UserId)
    (result : Except MatchError Call.Result) (s' : Store) : Prop where
  nobody : result = .error .noCandidates ↔
    s.waiting user .first = ∅ ∧ s.waiting user .second = ∅ ∧ s.eligible ruler person = ∅
  opens : ¬s.OpensNone s' ↔
    s.waiting user .first = ∅ ∧ s.waiting user .second = ∅ ∧ (s.eligible ruler person).Nonempty
  /-- An attempt that is opened is one of the user with an eligible candidate, who is shown. -/
  opened : ∀ a ∈ s'.attempts, a ∉ s.attempts →
    a.first = user ∧ a.second ∈ s.eligible ruler person ∧ Call.Shows result a.second
  proposed : (s.waiting user .first).Nonempty →
    ∃ a, s.IsLongestWaiting user .first a ∧ Call.Shows result a.second
  liked : s.waiting user .first = ∅ → (s.waiting user .second).Nonempty →
    ∃ a, s.IsLongestWaiting user .second a ∧ Call.Shows result a.first

theorem Meets.provides (meets : s.Meets ruler person user result s') :
    s.Provides ruler person user result s' := by
  have shown {v : UserId} (shows : Call.Shows result v) : result ≠ .error .noCandidates := by
    obtain ⟨partner, told, _⟩ := shows
    rw [told]
    exact nofun
  cases meets with
  | @resumes a _ _ longest shows idle =>
    have waits : (s.waiting user .first).Nonempty := ⟨a, longest.1⟩
    have idle' : s.OpensNone s' := congrArg (List.map Attempt.id) idle
    refine ⟨?_, ?_, ?_, ?_, ?_⟩
    · simp [shown shows, waits.ne_empty]
    · simp [idle', waits.ne_empty]
    · exact fun b mem new => absurd (idle ▸ mem) new
    · exact fun _ => ⟨a, longest, shows⟩
    · exact fun vacant => absurd vacant waits.ne_empty
  | @courts a _ _ vacant longest shows idle =>
    have waits : (s.waiting user .second).Nonempty := ⟨a, longest.1⟩
    have idle' : s.OpensNone s' := congrArg (List.map Attempt.id) idle
    refine ⟨?_, ?_, ?_, ?_, ?_⟩
    · simp [shown shows, waits.ne_empty]
    · simp [idle', waits.ne_empty]
    · exact fun b mem new => absurd (idle ▸ mem) new
    · simp [vacant]
    · exact fun _ _ => ⟨a, longest, shows⟩
  | @opens a _ _ vacant unliked own eligible shows opened =>
    have somebody : (s.eligible ruler person).Nonempty := ⟨a.second, eligible⟩
    have opens : ¬s.OpensNone s' := by
      intro same
      have lengths := congrArg List.length same
      simp [opened] at lengths
    refine ⟨?_, ?_, ?_, ?_, ?_⟩
    · simp [shown shows, somebody.ne_empty]
    · simp [opens, vacant, unliked, somebody]
    · intro b mem new
      rw [opened, List.mem_append, List.mem_singleton] at mem
      obtain rfl := mem.resolve_left new
      exact ⟨own, eligible, shows⟩
    · simp [vacant]
    · simp [unliked]
  | nobody vacant unliked none =>
    have idle : s.OpensNone s := rfl
    refine ⟨?_, ?_, ?_, ?_, ?_⟩
    · simp [vacant, unliked, none]
    · simp [idle, none]
    · exact fun b mem new => absurd mem new
    · simp [vacant]
    · simp [unliked]

/-- A completed `nextPartner` ends in `noCandidates` exactly when no pending attempt waits for the
user and no candidate is eligible. It opens an attempt exactly when none waits and a candidate is
eligible. Otherwise it shows the other person of the oldest attempt that waits, those in which the
user is first before all others. -/
theorem no_candidates_means_nobody (fresh : s₀.IsFresh)
    (undergoes : s₀.Undergoes link ruler calls s) (described : s.Describes user person)
    (somebody : user ≠ 0) (retries : Nat) :
    s.Assures link ((Call.next retries ⟨user⟩).program ruler) (s.Provides ruler person user) := by
  refine assures_of_all fun ventures => ?_
  have books := (undergoes.inOrder fresh).books
  have coherent := undergoes.isCoherent fresh
  exact (ventures.meets books coherent described somebody).provides

/-- User 3 waits for an answer to a like of their own, and no attempt waits for them. -/
theorem no_candidates_means_nobody_likedByTwo :
    likedByTwo.waiting 3 .first = ∅ ∧ likedByTwo.waiting 3 .second = ∅ ∧
      ∃ person, likedByTwo.Describes 3 person ∧
        likedByTwo.eligible (fun _ _ => some 0) person = {2, 4} ∧
        likedByTwo.Assures ("photos/" ++ ·) ((Call.next 0 ⟨3⟩).program fun _ _ => some 0)
          (likedByTwo.Provides (fun _ _ => some 0) person 3) := by
  have described : likedByTwo.Describes 3 ⟨_, _⟩ := ⟨rfl, rfl, by decide +kernel⟩
  refine ⟨by decide +kernel, by decide +kernel, _, described, by decide +kernel, ?_⟩
  exact no_candidates_means_nobody (isFresh_village [1, 2, 3, 4])
    (Undergoes.none.completeAll (isNumbered_village [1, 2, 3, 4]) _ _) described (by decide) 0

/-- For user zero `nextPartner` ends in `unauthenticated`, and in `noCandidates` never. -/
theorem candidates_of_nobody_are_withheld :
    ¬ ∀ (link : String → String) (ruler : Geo.Ruler) (s₀ s : Store) (calls : List Call)
      (user : UserId) (person : Person), s₀.IsFresh → s₀.Undergoes link ruler calls s →
        s.Describes user person → ∀ retries,
          s.Assures link ((Call.next retries ⟨user⟩).program ruler)
            (s.Provides ruler person user) := by
  intro claimed
  have described : (village [0]).Describes 0 ⟨_, _⟩ := ⟨rfl, rfl, by decide +kernel⟩
  have provides := (claimed ("photos/" ++ ·) (fun _ _ => some 0) (village [0]) (village [0]) [] 0 _
    (isFresh_village [0]) .none described 0).all (.fail _ .unauthenticated)
  have nobody := provides.nobody.2 ⟨by decide +kernel, by decide +kernel, by decide +kernel⟩
  cases nobody

end Store

end Matchmaking
