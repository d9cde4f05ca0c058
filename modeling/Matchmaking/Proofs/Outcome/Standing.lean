import Mathlib.Logic.Relation
import Matchmaking.Proofs.Outcome.Presentation
import Matchmaking.Proofs.Outcome.Touch
/-! A proposal that has been shown to its first person stands until that person acts. Other users
may ask, like, dislike and propose, to that person or to each other, and may change their records:
no call of theirs finds the attempt waiting for them, and none opens another one with the same first
person. -/
namespace Matchmaking
namespace Store

variable {link : String → String} {ruler : Geo.Ruler} {s s₁ s₂ : Store} {user : UserId}
  {a : Attempt}

/-- What may happen while a person is away. -/
inductive Meanwhile (link : String → String) (ruler : Geo.Ruler) (user : UserId) (s : Store) :
    Store → Prop
  /-- A call of another user, which comes to its end. -/
  | calls {c : Call} {result : Except MatchError Call.Result} {s' : Store} (other : c.user ≠ user)
      (yields : s.Yields link (c.program ruler) result s') : Meanwhile link ruler user s s'
  /-- Other users change their records, and no profile is taken away. -/
  | edits {s' : Store}
      (rest : s' =
        { s with profiles := s'.profiles, preferences := s'.preferences, photos := s'.photos })
      (profile : s'.profileOf? user = s.profileOf? user)
      (preferences : s'.preferencesOf? user = s.preferencesOf? user)
      (known : ∀ v, (s.profileOf? v).isSome → (s'.profileOf? v).isSome) :
      Meanwhile link ruler user s s'

/-- The proposal waits for its first person, who has been shown the second one and has no other. -/
structure IsStanding (s : Store) (a : Attempt) : Prop where
  register : s.IsRegister
  proposal : s.IsProposal a
  only : ∀ b, s.IsProposal b → b.first = a.first → b = a
  shown : s.lastHappening? a.id = some .shownToFirst
  complete : ∃ person, s.Describes a.first person
  known : (s.profileOf? a.second).isSome

namespace IsStanding

theorem of_presents (presents : s.Presents user a a.second) (own : a.first = user)
    (register : s.IsRegister) (complete : ∃ person, s.Describes user person)
    (known : (s.profileOf? a.second).isSome) : s.IsStanding a := by
  generalize second : a.second = v at presents
  cases presents with
  | offers proposal _ only shown =>
    subst own
    exact ⟨register, proposal, only, shown, complete, known⟩
  | courts _ liker =>
    exact absurd (own.trans liker.second.symm) (register.distinct a liker.mem)

variable (standing : s.IsStanding a)

include standing

theorem ne_of_touches {other : UserId} {id : AttemptId} {s' : Store}
    (touches : s.Touches other id s') (apart : other ≠ a.first) : a.id ≠ id := by
  intro here
  obtain ⟨side, own, turn⟩ := touches.turn a standing.proposal.mem here
  rw [← here, standing.proposal.begun] at turn
  cases turn
  exact apart own.symm

theorem of_touches {other : UserId} {id : AttemptId} {s' : Store}
    (touches : s.Touches other id s') (apart : other ≠ a.first) (register : s'.IsRegister)
    (people : s.SamePeople s') : s'.IsStanding a := by
  have ne := standing.ne_of_touches touches apart
  have proposal := standing.proposal
  refine ⟨register, ⟨?_, proposal.pending, ?_⟩, ?_, ?_, ?_, ?_⟩
  · exact (touches.attempts a ne).2 proposal.mem
  · rw [touches.stage ne, proposal.begun]
  · intro b proposal' own
    by_cases here : b.id = id
    · have begun := proposal'.begun
      rw [here] at begun
      have theirs := touches.begun b proposal'.mem here begun
      exact absurd (theirs.symm.trans own) apart
    · refine standing.only b ⟨?_, proposal'.pending, ?_⟩ own
      · exact (touches.attempts b here).1 proposal'.mem
      · rw [← touches.stage here, proposal'.begun]
  · rw [touches.told a.id ne, standing.shown]
  · obtain ⟨person, described⟩ := standing.complete
    exact ⟨person, people.describes described⟩
  · rw [profileOf?, people.profiles]
    exact standing.known

/-- A completed call of another user leaves the proposal standing. -/
theorem step {s' : Store} (meanwhile : s.Meanwhile link ruler a.first s') : s'.IsStanding a := by
  cases meanwhile with
  | calls other yields =>
    rcases yields.effect.touches standing.register with rfl | ⟨id, touches⟩
    · exact standing
    · have register := yields.effect.isRegister standing.register
      exact standing.of_touches touches other register yields.samePeople
  | edits rest profile preferences known =>
    have attempts : s'.attempts = s.attempts := by rw [rest]
    have log : s'.log = s.log := by rw [rest]
    have stage (id : AttemptId) : s'.stage id = s.stage id := by
      rw [Store.stage, lastHappening?_congr log, Store.stage]
    refine ⟨standing.register.congr attempts, ⟨?_, standing.proposal.pending, ?_⟩, ?_, ?_, ?_, ?_⟩
    · rw [attempts]
      exact standing.proposal.mem
    · rw [stage, standing.proposal.begun]
    · rintro b ⟨mem, pending, begun⟩ own
      rw [attempts] at mem
      rw [stage] at begun
      exact standing.only b ⟨mem, pending, begun⟩ own
    · rw [lastHappening?_congr log, standing.shown]
    · obtain ⟨person, described⟩ := standing.complete
      refine ⟨person, ?_, ?_, described.complete⟩
      · rw [profile, described.profile]
      · rw [preferences, described.preferences]
    · exact known a.second standing.known

theorem run {s' : Store}
    (meanwhile : Relation.ReflTransGen (Meanwhile link ruler a.first) s s') : s'.IsStanding a := by
  induction meanwhile with
  | refl => exact standing
  | tail _ step ih => exact ih.step step

theorem presents : s.Presents a.first a a.second :=
  .offers standing.proposal rfl standing.only standing.shown

end IsStanding

/-- Other users cannot move a proposal. After any calls of theirs that came to their end, the
attempt stays pending and shown to its first person, whose next `nextPartner` returns the same
showcase and writes nothing. -/
theorem proposal_stands {s₀ : Store} {calls : List Call} {retries : Nat} {partner : Showcase}
    (fresh : s₀.IsFresh) (undergoes : s₀.Undergoes link ruler calls s)
    (shown : s.Ventures link False ((Call.next retries ⟨user⟩).program ruler)
      (some (.ok (.partner partner))) s₁)
    (mem : a ∈ s₁.attempts) (pending : a.isPending) (own : a.first = user)
    (second : a.second = partner.profile.userId)
    (meanwhile : Relation.ReflTransGen (Meanwhile link ruler user) s₁ s₂) :
    s₂.IsProposal a ∧ s₂.lastHappening? a.id = some .shownToFirst ∧
      ∀ again, s₂.Assures link ((Call.next again ⟨user⟩).program ruler) fun result s₃ =>
        s₃ = s₂ ∧ ∃ partner', result = .ok (.partner partner') ∧
          partner'.profile.userId = partner.profile.userId := by
  have coherent := (undergoes.next shown.yields_of_ended).isCoherent fresh
  obtain ⟨⟨somebody, person, described⟩, _⟩ := shown.takesUp_of_partner
  obtain ⟨b, presents, known⟩ := shown.presents (undergoes.isCoherent fresh).register coherent
  obtain ⟨_, waits, _⟩ := presents.awaits coherent.register
  have joins : a.joins user partner.profile.userId := by
    rw [← own, ← second]
    exact a.joins_people
  obtain rfl := waits.eq_of_joins coherent.exclusive mem joins pending
  rw [← second] at presents known ⊢
  subst own
  have standing : s₁.IsStanding a := by
    refine .of_presents presents rfl coherent.register ?_ ?_
    · exact ⟨person, shown.samePeople.describes described⟩
    · rw [profileOf?_of_shown known]
      rfl
  have standing := standing.run meanwhile
  refine ⟨standing.proposal, standing.shown, ?_⟩
  intro again
  obtain ⟨person, described⟩ := standing.complete
  obtain ⟨partner', told⟩ := exists_shown link standing.known
  refine (standing.presents.assures_next standing.register described somebody told again).mono ?_
  rintro result s₃ ⟨same, idle⟩
  exact ⟨idle, partner', same, userId_of_shown told⟩

section Bustle

theorem meanwhile_completeAll (numbered : s.IsNumbered) (around : Surroundings) {calls : List Call}
    (others : ∀ c ∈ calls, c.user ≠ user) :
    Relation.ReflTransGen (Meanwhile link ruler user) s
      (s.completeAll link around ruler calls) := by
  induction calls generalizing s with
  | nil => exact .refl
  | cons c rest ih =>
    obtain ⟨yields, numbered⟩ := yields_complete numbered around (c.program ruler)
    obtain ⟨other, others⟩ := List.forall_mem_cons.1 others
    exact .head (.calls other yields) (ih numbered others)

/-- User 2 answers user 1 before being shown to them, and is shown user 3, who likes user 1. -/
def othersCalls : List Call := [.swipe ⟨2⟩ 1 .dislike, .next 0 ⟨2⟩, .next 0 ⟨3⟩, .swipe ⟨3⟩ 1 .like]

def amidOthers : Store :=
  ((village [1, 2, 3]).complete ("photos/" ++ ·) { photoBase := "photos" } (seeker 1)).2.completeAll
    ("photos/" ++ ·) { photoBase := "photos" } (fun _ _ => some 0) othersCalls

theorem proposal_stands_amidOthers :
    amidOthers.attempts.map Attempt.people = [(1, 2), (2, 3), (3, 1)] ∧
      ∃ partner s₁, partner.profile.userId = 2 ∧
        (village [1, 2, 3]).Ventures ("photos/" ++ ·) False (seeker 1)
          (some (.ok (.partner partner))) s₁ ∧
        Relation.ReflTransGen (Meanwhile ("photos/" ++ ·) (fun _ _ => some 0) 1) s₁
          (amidOthers.putPhotos 2 ["coat"]) ∧
        ∃ a ∈ s₁.attempts, a.isPending ∧ a.first = 1 ∧ a.second = 2 ∧
          (amidOthers.putPhotos 2 ["coat"]).IsProposal a ∧
          (amidOthers.putPhotos 2 ["coat"]).lastHappening? a.id = some .shownToFirst ∧
          ∀ again, (amidOthers.putPhotos 2 ["coat"]).Assures ("photos/" ++ ·)
            ((Call.next again ⟨1⟩).program fun _ _ => some 0) fun result s₃ =>
              s₃ = amidOthers.putPhotos 2 ["coat"] ∧ ∃ partner', result = .ok (.partner partner') ∧
                partner'.profile.userId = partner.profile.userId := by
  have numbered := isNumbered_village [1, 2, 3]
  obtain ⟨partner, s₁, same, computed, shown⟩ :=
    exists_partner ("photos/" ++ ·) numbered { photoBase := "photos" } 1 2 (by decide +kernel)
  have found : ∃ a ∈ s₁.attempts, a.isPending ∧ a.first = 1 ∧ a.second = 2 := by
    rw [computed]
    decide +kernel
  obtain ⟨a, mem, pending, own, second⟩ := found
  have meanwhile : Relation.ReflTransGen (Meanwhile ("photos/" ++ ·) (fun _ _ => some 0) 1) s₁
      (amidOthers.putPhotos 2 ["coat"]) := by
    have numbered₁ : s₁.IsNumbered := by
      rw [computed]
      exact (yields_complete numbered _ _).2
    have others : ∀ c ∈ othersCalls, c.user ≠ 1 := by decide
    rw [computed] at numbered₁ ⊢
    refine .tail (meanwhile_completeAll numbered₁ { photoBase := "photos" } others) ?_
    exact .edits rfl rfl rfl fun _ => id
  refine ⟨by decide +kernel, partner, s₁, same, shown, meanwhile, a, mem, pending, own, second, ?_⟩
  exact proposal_stands (isFresh_village [1, 2, 3]) .none shown mem pending own
    (second.trans same.symm) meanwhile

end Bustle

end Store
end Matchmaking
