import Matchmaking.Proofs.Engine.Venture
/-! What comes of `nextPartner`, for every keeper that is bound by the contract of the stores, and
also where the call is cut off. There are three ways to find a partner. Each of them is about one
attempt, which the call may have to open, of which it has something to tell, and one of whose people
it shows. -/
namespace Matchmaking

namespace Store

variable {s s' : Store} {user : UserId}

def IsVacant (s : Store) (user : UserId) : Prop := ∀ a, s.IsProposal a → a.first ≠ user

structure Describes (s : Store) (user : UserId) (person : Person) : Prop where
  profile : s.profileOf? user = some person.profile
  preferences : s.preferencesOf? user = some person.preferences
  complete : person.isComplete

theorem SamePeople.describes (people : s.SamePeople s') {person : Person}
    (described : s.Describes user person) : s'.Describes user person where
  profile := by rw [profileOf?, people.profiles, ← profileOf?, described.profile]
  preferences := by rw [preferencesOf?, people.preferences, ← preferencesOf?, described.preferences]
  complete := described.complete

namespace Describes

variable {person person' : Person}

theorem own (described : s.Describes user person) : person.profile.userId = user := by
  simpa using List.find?_some described.profile

theorem eq_of_found (described : s.Describes user person) {profile : Profile}
    {preferences : Preferences} (found : s.profileOf? user = some profile)
    (wanted : s.preferencesOf? user = some preferences) : person = ⟨profile, preferences⟩ := by
  cases person
  cases described.profile.symm.trans found
  cases described.preferences.symm.trans wanted
  rfl

theorem unique (described : s.Describes user person) (described' : s.Describes user person') :
    person = person' :=
  described.eq_of_found described'.profile described'.preferences

end Describes

end Store

namespace Keeper

open Store Engine

variable {keeper : Keeper Store} {link : String → String} {faulty : Prop} {ruler : Geo.Ruler}
  {s s' : Store} {user : UserId} {person : Person}

/-- The attempt that `nextPartner` takes up, the events that are left to be written of it, the user
who is shown, and the store once the attempt is there. -/
inductive TakesUp (keeper : Keeper Store) (faulty : Prop) (ruler : Geo.Ruler) (s : Store)
    (user : UserId) (person : Person) : Attempt → List Happening → UserId → Store → Prop
  | resumes {a : Attempt} (proposal : s.IsProposal a) (own : a.first = user) :
      TakesUp keeper faulty ruler s user person a (Happening.missing (s.lastHappening? a.id))
        a.second s
  | courts {a : Attempt} (vacant : s.IsVacant user) (liker : s.IsLiker user a)
      (served : keeper s (.likerOf user) (.ok (some a)) s) :
      TakesUp keeper faulty ruler s user person a
        (if s.lastHappening? a.id = some .firstLiked then [.shownToSecond] else []) a.first s
  | opens {a : Attempt} (clock : Int) (vacant : s.IsVacant user)
      (unliked : ∀ b, ¬s.IsLiker user b) (own : a.first = user) (admits : s.Admits a)
      (picked :
        keeper.Trails faulty s (chooseCandidate ruler person) (some (.ok (some a.second))) s)
      (served : keeper s (.createAttempt user a.second) (.ok a) (s.withAttempt a clock)) :
      TakesUp keeper faulty ruler s user person a [.created, .shownToFirst] a.second
        (s.withAttempt a clock)

/-- A round of `freshPartner` that opens no attempt: no candidate is chosen, or the one that is
chosen has a pending attempt with the person. -/
inductive Misses (keeper : Keeper Store) (faulty : Prop) (ruler : Geo.Ruler) (s : Store)
    (person : Person) : Prop
  | nobody (picked : keeper.Trails faulty s (chooseCandidate ruler person) (some (.ok none)) s)
  | taken {v : UserId}
      (picked : keeper.Trails faulty s (chooseCandidate ruler person) (some (.ok (some v))) s)
      (pending : (∃ a ∈ s.attempts, a.joins person.profile.userId v ∧ a.isPending) ∨ faulty)

/-- What comes of one of `hangingPartner`, `liker` and `freshPartner`. -/
inductive Tries (keeper : Keeper Store) (faulty : Prop) (ruler : Geo.Ruler) (link : String → String)
    (s : Store) (user : UserId) (person : Person) (nobody : Prop) :
    Option (Except MatchError (Option Showcase)) → Store → Prop
  | fails (holds : nobody) :
      Tries keeper faulty ruler link s user person nobody (some (.ok none)) s
  | stops {outcome : Option (Except MatchError (Option Showcase))} (cut : IsCut faulty outcome) :
      Tries keeper faulty ruler link s user person nobody outcome s
  | takesUp {a : Attempt} {owed told : List Happening} {v : UserId} {base s' : Store}
      {outcome : Option (Except MatchError (Option Showcase))}
      (takes : keeper.TakesUp faulty ruler s user person a owed v base)
      (partly : base.Partly a.id owed told s')
      (whole : told = owed ∧ outcome = some ((s.shown link v).map some) ∨ IsCut faulty outcome) :
      Tries keeper faulty ruler link s user person nobody outcome s'

/-- What comes of `nextPartner`. -/
inductive Pursues (keeper : Keeper Store) (faulty : Prop) (ruler : Geo.Ruler)
    (link : String → String) (s : Store) (user : UserId) :
    Option (Except MatchError Showcase) → Store → Prop
  | nobody (zero : user = 0) :
      Pursues keeper faulty ruler link s user (some (.error .unauthenticated)) s
  | incomplete (missing : ∀ person, ¬s.Describes user person) :
      Pursues keeper faulty ruler link s user (some (.error .incompleteProfile)) s
  | stops {outcome : Option (Except MatchError Showcase)} (cut : IsCut faulty outcome) :
      Pursues keeper faulty ruler link s user outcome s
  | rests {person : Person} (described : s.Describes user person) (vacant : s.IsVacant user)
      (unliked : ∀ a, ¬s.IsLiker user a) (misses : keeper.Misses faulty ruler s person) :
      Pursues keeper faulty ruler link s user (some (.error .noCandidates)) s
  | takesUp {person : Person} {a : Attempt} {owed told : List Happening} {v : UserId}
      {base s' : Store} {outcome : Option (Except MatchError Showcase)} (somebody : user ≠ 0)
      (described : s.Describes user person)
      (takes : keeper.TakesUp faulty ruler s user person a owed v base)
      (partly : base.Partly a.id owed told s')
      (whole : told = owed ∧ outcome = some (s.shown link v) ∨ IsCut faulty outcome) :
      Pursues keeper faulty ruler link s user outcome s'

theorem Tries.imp {nobody nobody' : Prop} {outcome : Option (Except MatchError (Option Showcase))}
    (tries : keeper.Tries faulty ruler link s user person nobody outcome s')
    (weaker : nobody → nobody') :
    keeper.Tries faulty ruler link s user person nobody' outcome s' := by
  cases tries with
  | fails holds => exact .fails (weaker holds)
  | stops cut => exact .stops cut
  | takesUp takes partly whole => exact .takesUp takes partly whole

namespace Trails

variable {outcome : Option (Except MatchError (Option Showcase))}

/-- The next way to find a partner is tried only when the ones before it have found none. -/
theorem of_tries {p : Program (Option Showcase)} {f : Option Showcase → Program Showcase}
    {nobody : Prop} {outcome : Option (Except MatchError Showcase)}
    (somebody : user ≠ 0) (described : s.Describes user person)
    (stops : ∀ partner, f (some partner) = .done partner)
    (tries : ∀ {outcome s₁}, keeper.Trails faulty s p outcome s₁ →
      keeper.Tries faulty ruler link s user person nobody outcome s₁)
    (trails : keeper.Trails faulty s (p >>= f) outcome s') :
    keeper.Pursues faulty ruler link s user outcome s' ∨
      (nobody ∧ keeper.Trails faulty s (f none) outcome s') := by
  rcases trails.of_bind with ⟨found, s₁, first, second⟩ | ⟨why, first, rfl⟩
  · cases tries first with
    | fails holds => exact Or.inr ⟨holds, second⟩
    | stops cut => exact absurd rfl cut.not_ok
    | @takesUp _ _ _ v _ _ _ takes partly whole =>
      obtain ⟨all, same⟩ := whole.resolve_right fun cut => cut.not_ok rfl
      cases shown : s.shown link v <;> rw [shown] at same <;> cases same
      rw [stops] at second
      obtain ⟨rfl, rfl⟩ := second.of_done
      exact Or.inl (.takesUp somebody described takes partly (Or.inl ⟨all, by rw [shown]⟩))
  · generalize told : why.map Except.error = first_outcome at first
    refine Or.inl ?_
    cases tries first with
    | fails => cases why <;> cases told
    | stops cut => exact .stops ⟨cut.1, why, rfl⟩
    | @takesUp _ _ _ v _ _ _ takes partly whole =>
      refine .takesUp somebody described takes partly (whole.imp ?_ fun cut => ⟨cut.1, why, rfl⟩)
      rintro ⟨all, same⟩
      refine ⟨all, ?_⟩
      rw [← told] at same
      cases shown : s.shown link v <;> rw [shown] at same <;> cases why <;> cases same
      rfl

variable (bound : keeper.IsBound link)

include bound

theorem hangingAmong {as : List Attempt}
    (own : ∀ a ∈ as, a ∈ s.attempts ∧ a.first = user ∧ a.isPending)
    (trails : keeper.Trails faulty s (Engine.hangingAmong as) outcome s') :
    keeper.Tries faulty ruler link s user person (∀ a ∈ as, s.stage a.id ≠ .awaitingFirst) outcome
      s' := by
  induction as with
  | nil =>
    obtain ⟨rfl, rfl⟩ := trails.of_done
    exact .fails fun a mem => nomatch mem
  | cons a rest ih =>
    obtain ⟨mine, others⟩ := List.forall_mem_cons.1 own
    rcases of_lastHappening bound trails with after | ⟨cut, rfl⟩
    · split at after
      · next begun =>
        obtain ⟨told, partly, whole⟩ := after.of_showing bound (narrates_completeShowing bound _)
        exact .takesUp (.resumes ⟨mine.1, mine.2.2, begun⟩ mine.2.1) partly whole
      · next passed =>
        exact (ih others after).imp fun none_waits => List.forall_mem_cons.2 ⟨passed, none_waits⟩
    · exact .stops cut

theorem hangingPartner
    (trails : keeper.Trails faulty s (Engine.hangingPartner user) outcome s') :
    keeper.Tries faulty ruler link s user person (s.IsVacant user) outcome s' := by
  rcases trails.of_asking fun e => ⟨_, rfl⟩ with ⟨reply, s₁, served, after⟩ | ⟨cut, rfl⟩
  · cases bound.serves served with
    | pendingOf all =>
      refine (hangingAmong bound (fun a listed => (all a).1 listed) after).imp ?_
      intro none_waits a proposal own
      exact none_waits a ((all a).2 ⟨proposal.mem, own, proposal.pending⟩) proposal.begun
  · exact .stops cut

theorem liker (vacant : s.IsVacant user)
    (trails : keeper.Trails faulty s (Engine.liker user) outcome s') :
    keeper.Tries faulty ruler link s user person (∀ a, ¬s.IsLiker user a) outcome s' := by
  rcases trails.of_asking fun e => ⟨_, rfl⟩ with ⟨reply, s₁, served, after⟩ | ⟨cut, rfl⟩
  · cases bound.serves served with
    | @likerOf _ a liker _ =>
      rcases of_lastHappening bound after with after | ⟨cut, rfl⟩
      · have narrates : Narrates keeper faulty a.id
            (if s.lastHappening? a.id = some .firstLiked then [.shownToSecond] else [])
            (if s.lastHappening? a.id = some .firstLiked then append a.id .shownToSecond
              else .done ()) := by
          split
          · exact narrates_append bound .shownToSecond
          · exact narrates_nothing
        have after : keeper.Trails faulty s
            ((if s.lastHappening? a.id = some .firstLiked then append a.id .shownToSecond
              else .done ()) >>= fun _ =>
                Engine.showcase a.first >>= fun partner => .done (some partner)) outcome s' := by
          split at after
          · next liked => rwa [if_pos liked]
          · next shown => rwa [if_neg shown]
        obtain ⟨told, partly, whole⟩ := after.of_showing bound narrates
        exact .takesUp (.courts vacant liker served) partly whole
      · exact .stops cut
    | noLiker absent =>
      obtain ⟨rfl, rfl⟩ := after.of_done
      exact .fails absent
  · exact .stops cut

theorem freshPartner {rounds : Nat} (own : person.profile.userId = user)
    (vacant : s.IsVacant user) (unliked : ∀ a, ¬s.IsLiker user a)
    (trails : keeper.Trails faulty s (Engine.freshPartner ruler person rounds) outcome s') :
    keeper.Tries faulty ruler link s user person
      (rounds = 0 ∨ keeper.Misses faulty ruler s person) outcome s' := by
  subst own
  induction rounds with
  | zero =>
    obtain ⟨rfl, rfl⟩ := trails.of_done
    exact .fails (Or.inl rfl)
  | succ rounds ih =>
    rcases of_chooseCandidate bound trails with ⟨_ | v, picked, after⟩ | ⟨cut, rfl⟩
    · obtain ⟨rfl, rfl⟩ := after.of_done
      exact .fails (Or.inr (.nobody picked))
    · rcases of_call after with ⟨reply, s₁, served, after⟩ | ⟨allowed, e, after⟩ | ⟨cut, rfl⟩
      · cases bound.serves served with
        | conflicts mem joins pending =>
          exact (ih after).imp fun _ => Or.inr (.taken picked (Or.inl ⟨_, mem, joins, pending⟩))
        | opens id createdAt clock free fresh =>
          have after : keeper.Trails faulty
              (s.withAttempt ⟨id, person.profile.userId, v, .pending, createdAt⟩ clock)
              (append id .created >>= fun _ => append id .shownToFirst >>= fun _ =>
                Engine.showcase v >>= fun partner => .done (some partner)) outcome s' := after
          rw [← Program.bind_assoc] at after
          obtain ⟨told, partly, whole⟩ := after.of_showing bound
            ((narrates_append bound .created).then (narrates_append bound .shownToFirst))
          exact .takesUp (.opens clock vacant unliked rfl ⟨rfl, fresh, free⟩ picked served) partly
            whole
      · cases e
        case pendingConflict u w =>
          exact (ih after).imp fun _ => Or.inr (.taken picked (Or.inr allowed))
        all_goals
          obtain ⟨rfl, rfl⟩ := of_fail after
          exact .stops ⟨allowed, some _, rfl⟩
      · exact .stops cut
    · exact .stops cut

/-- Either the records of the person are read and complete, or the call ends there. -/
theorem of_completePerson {α : Type} {f : Person → Program α}
    {outcome : Option (Except MatchError α)}
    (trails : keeper.Trails faulty s (completePerson user >>= f) outcome s') :
    (∃ person, s.Describes user person ∧ keeper.Trails faulty s (f person) outcome s') ∨
      (((∀ person, ¬s.Describes user person) ∧ outcome = some (.error .incompleteProfile) ∨
        IsCut faulty outcome) ∧ s' = s) := by
  rcases trails.of_reading bound rfl fun e => ⟨_, rfl⟩ with after | ⟨cut, same⟩
  swap
  · exact Or.inr ⟨Or.inr cut, same⟩
  rcases after.of_reading bound rfl fun e => ⟨_, rfl⟩ with after | ⟨cut, same⟩
  swap
  · exact Or.inr ⟨Or.inr cut, same⟩
  have refused (missing : ∀ person, ¬s.Describes user person)
      (after : keeper.Trails faulty s (.fail .incompleteProfile) outcome s') :
      ((∀ person, ¬s.Describes user person) ∧ outcome = some (.error .incompleteProfile) ∨
        IsCut faulty outcome) ∧ s' = s := by
    obtain ⟨rfl, same⟩ := after.of_fail
    exact ⟨Or.inl ⟨missing, rfl⟩, same⟩
  cases found : s.profileOf? user with
  | none =>
    rw [found] at after
    exact Or.inr (refused (fun _ described => nomatch found.symm.trans described.profile) after)
  | some profile =>
    cases wanted : s.preferencesOf? user with
    | none =>
      rw [found, wanted] at after
      refine Or.inr (refused (fun _ described => ?_) after)
      exact nomatch wanted.symm.trans described.preferences
    | some preferences =>
      rw [found, wanted] at after
      dsimp only [Program.bind, Program.expect_ok, Program.done_bind, bind] at after
      split at after
      · next complete => exact Or.inl ⟨_, ⟨found, wanted, complete⟩, after⟩
      · next incomplete =>
        refine Or.inr (refused (fun person described => incomplete ?_) after)
        rw [← described.eq_of_found found wanted]
        exact described.complete

theorem nextPartner {retries : Nat} {outcome : Option (Except MatchError Showcase)}
    (trails : keeper.Trails faulty s (Engine.nextPartner ruler retries ⟨user⟩) outcome s') :
    keeper.Pursues faulty ruler link s user outcome s' := by
  unfold Engine.nextPartner asUser identify at trails
  by_cases nobody : user = 0
  · rw [if_pos nobody] at trails
    obtain ⟨rfl, rfl⟩ := of_fail trails
    exact .nobody nobody
  rw [if_neg nobody] at trails
  rcases of_completePerson bound trails with
    ⟨person, described, after⟩ | ⟨⟨missing, rfl⟩ | cut, rfl⟩
  swap
  · exact .incomplete missing
  swap
  · exact .stops cut
  rcases of_tries nobody described (fun _ => rfl) (hangingPartner bound) after with
    pursues | ⟨vacant, after⟩
  · exact pursues
  rcases of_tries nobody described (fun _ => rfl) (liker bound vacant) after with
    pursues | ⟨unliked, after⟩
  · exact pursues
  rcases of_tries nobody described (fun _ => rfl)
    (freshPartner bound described.own vacant unliked) after with pursues | ⟨missed, after⟩
  · exact pursues
  obtain ⟨rfl, rfl⟩ := of_fail after
  exact .rests described vacant unliked (missed.resolve_left (Nat.succ_ne_zero retries))

end Trails

end Keeper
end Matchmaking
