import Matchmaking.Proofs.Engine.Pursuit
import Matchmaking.Proofs.Traffic.Proposals
/-! What `nextPartner` takes up where likes are ranked by age, what it leaves of that when it is cut
off, and what the next one finds. -/
namespace Matchmaking
namespace Store

variable {link : String → String} {faulty : Prop} {ruler : Geo.Ruler} {s s' : Store}
  {user : UserId}

/-- The attempt that `nextPartner` takes up, the events that are left to be written of it, the user
who is shown, and the store once the attempt is there. -/
inductive TakesUp (s : Store) (user : UserId) :
    Attempt → List Happening → UserId → Store → Prop
  | resumes {a : Attempt} (proposal : s.IsProposal a) (own : a.first = user) :
      TakesUp s user a (Happening.missing (s.lastHappening? a.id)) a.second s
  | courts {a : Attempt} (vacant : s.IsVacant user) (liker : s.IsLiker user a)
      (oldest : ∀ b, s.IsLiker user b → a.precedes b) :
      TakesUp s user a (if s.lastHappening? a.id = some .firstLiked then [.shownToSecond] else [])
        a.first s
  | opens {a : Attempt} (clock : Int) (vacant : s.IsVacant user)
      (unliked : ∀ b, ¬s.IsLiker user b) (own : a.first = user) (admits : s.Admits a)
      (known : (s.profileOf? a.second).isSome) :
      TakesUp s user a [.created, .shownToFirst] a.second (s.withAttempt a clock)

/-- The next `nextPartner` of the user finds that attempt, of which no event is left to be written,
and shows the other person of it. -/
inductive Presents (s : Store) (user : UserId) : Attempt → UserId → Prop
  | offers {a : Attempt} (proposal : s.IsProposal a) (own : a.first = user)
      (only : ∀ b, s.IsProposal b → b.first = user → b = a)
      (shown : s.lastHappening? a.id = some .shownToFirst) : Presents s user a a.second
  | courts {a : Attempt} (vacant : s.IsVacant user) (liker : s.IsLiker user a)
      (oldest : ∀ b, s.IsLiker user b → a.precedes b)
      (shown : s.lastHappening? a.id = some .shownToSecond) : Presents s user a a.first

theorem TakesUp.of_presents {a b : Attempt} {owed : List Happening} {v w : UserId} {base : Store}
    (takes : s.TakesUp user b owed w base) (presents : s.Presents user a v)
    (register : s.IsRegister) : owed = [] ∧ w = v ∧ base = s := by
  cases presents with
  | offers proposal own only shown =>
    cases takes with
    | resumes proposal' own' =>
      have same := only b proposal' own'
      subst same
      rw [shown]
      exact ⟨rfl, rfl, rfl⟩
    | courts vacant => exact absurd own (vacant a proposal)
    | opens _ vacant => exact absurd own (vacant a proposal)
  | courts vacant liker oldest shown =>
    cases takes with
    | resumes proposal own => exact absurd own (vacant b proposal)
    | courts _ liker' oldest' =>
      have ids := Attempt.id_eq_of_precedes (oldest' a liker) (oldest b liker')
      have same := register.unique b liker'.mem a liker.mem ids
      subst same
      refine ⟨if_neg ?_, rfl, rfl⟩
      rw [shown]
      exact nofun
    | opens _ _ unliked => exact absurd liker (unliked a)

/-- What comes of `nextPartner`. -/
inductive Pursues (link : String → String) (faulty : Prop) (s : Store) (user : UserId) :
    Option (Except MatchError Showcase) → Store → Prop
  | rests {outcome : Option (Except MatchError Showcase)}
      (nobody : (s.IsVacant user ∧ ∀ a, ¬s.IsLiker user a) ∧
        outcome = some (.error .noCandidates) ∨ Keeper.IsCut faulty outcome) :
      Pursues link faulty s user outcome s
  | takesUp {a : Attempt} {owed told : List Happening} {v : UserId} {base s' : Store}
      {outcome : Option (Except MatchError Showcase)}
      (takes : s.TakesUp user a owed v base) (partly : base.Partly a.id owed told s')
      (whole : told = owed ∧ outcome = some (s.shown link v) ∨ Keeper.IsCut faulty outcome) :
      Pursues link faulty s user outcome s'

theorem TakesUp.of_keeper {person : Person} {a : Attempt} {owed : List Happening} {v : UserId}
    {base : Store}
    (takes : (Keeper.faithful link).TakesUp faulty ruler s user person a owed v base) :
    s.TakesUp user a owed v base := by
  cases takes with
  | resumes proposal own => exact .resumes proposal own
  | courts vacant liker served => exact .courts vacant liker served.2.1
  | opens clock vacant unliked own admits picked =>
    obtain ⟨_, known⟩ := picked.isOther_of_chosen Keeper.faithful_isBound _ rfl
    exact .opens clock vacant unliked own admits known

namespace Ventures

variable {retries : Nat} {outcome : Option (Except MatchError Call.Result)}

theorem of_next
    (ventures : s.Ventures link faulty ((Call.next retries ⟨user⟩).program ruler) outcome s') :
    ∃ shown, (Keeper.faithful link).Pursues faulty ruler link s user shown s' ∧
      outcome = shown.map fun result => result.map .partner := by
  obtain ⟨shown, first, told⟩ := (Keeper.faithful_trails.2 ventures).of_bind_done
  exact ⟨shown, first.nextPartner Keeper.faithful_isBound, told⟩

/-- Every `nextPartner` by a user with complete records is one of these. -/
theorem pursues {person : Person} (described : s.Describes user person) (somebody : user ≠ 0)
    (ventures : s.Ventures link faulty ((Call.next retries ⟨user⟩).program ruler) outcome s') :
    ∃ shown, s.Pursues link faulty user shown s' ∧
      outcome = shown.map fun result => result.map .partner := by
  obtain ⟨shown, pursues, told⟩ := ventures.of_next
  refine ⟨shown, ?_, told⟩
  cases pursues with
  | nobody zero => exact absurd zero somebody
  | incomplete missing => exact absurd described (missing person)
  | stops cut => exact .rests (Or.inr cut)
  | rests _ vacant unliked => exact .rests (Or.inl ⟨⟨vacant, unliked⟩, rfl⟩)
  | takesUp _ _ takes partly whole => exact .takesUp (.of_keeper takes) partly whole

/-- A showcase that is returned comes from an attempt taken up, all of whose events are written. -/
theorem takesUp_of_partner {partner : Showcase}
    (ventures : s.Ventures link faulty ((Call.next retries ⟨user⟩).program ruler)
      (some (.ok (.partner partner))) s') :
    (user ≠ 0 ∧ ∃ person, s.Describes user person) ∧
      ∃ a owed v base, s.TakesUp user a owed v base ∧ base.Partly a.id owed owed s' ∧
        s.shown link v = .ok partner := by
  obtain ⟨shown, pursues, same⟩ := ventures.of_next
  rcases shown with _ | e | partner' <;> cases same
  cases pursues with
  | stops cut => exact absurd rfl cut.not_ok
  | takesUp somebody described takes partly whole =>
    obtain ⟨rfl, answered⟩ := whole.resolve_right fun cut => cut.not_ok rfl
    exact ⟨⟨somebody, _, described⟩, _, _, _, _, .of_keeper takes, partly,
      (Option.some.inj answered).symm⟩

theorem of_nobody
    (ventures : s.Ventures link faulty ((Call.next retries ⟨0⟩).program ruler) outcome s') :
    s' = s := (Keeper.faithful_trails.2 ventures).of_fail.2

end Ventures
end Store
end Matchmaking
