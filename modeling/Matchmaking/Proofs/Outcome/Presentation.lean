import Matchmaking.Proofs.Outcome.Assurance
import Matchmaking.Proofs.Outcome.Series
import Matchmaking.Proofs.Traffic.Coherence
/-! What a person is shown. The partner may come from a proposal that was interrupted, from a like
that waits, or from a choice just made; in each case the call leaves one attempt in which the
person is waited for, and to which every further call leads back. -/
namespace Matchmaking

namespace Happening

def shownTo : Role → Happening
  | .first => shownToFirst
  | .second => shownToSecond

theorem last_missing (last : Option Happening) :
    (missing last).getLast?.or last = some .shownToFirst := by
  rcases last with _ | h
  · rfl
  · cases h <;> rfl

end Happening

namespace Store

variable {link : String → String} {faulty : Prop} {ruler : Geo.Ruler} {s s' base : Store}
  {user v : UserId} {a : Attempt} {owed : List Happening} {retries : Nat} {partner : Showcase}

theorem profileOf?_of_shown (shown : s.shown link v = .ok partner) :
    s.profileOf? v = some partner.profile := by
  unfold Store.shown at shown
  split at shown
  · cases shown
  · next profile found =>
    cases shown
    exact found

theorem userId_of_shown (shown : s.shown link v = .ok partner) : partner.profile.userId = v := by
  have same := List.find?_some (profileOf?_of_shown shown)
  exact eq_of_beq same

theorem Undergoes.isCoherent {s₀ : Store} {calls : List Call}
    (undergoes : s₀.Undergoes link ruler calls s) (fresh : s₀.IsFresh) : s.IsCoherent := by
  obtain ⟨t, reaches, _, rfl⟩ := undergoes.reaches
  exact reaches.isCoherent fresh

namespace Presents

variable (presents : s.Presents user a v) (register : s.IsRegister)

include presents register

theorem awaits :
    ∃ side, s.Awaits a side user v ∧ s.lastHappening? a.id = some (.shownTo side) := by
  cases presents with
  | offers proposal own only shown =>
    subst own
    have turn := s.awaiting_of_awaitingFirst a.id proposal.begun
    exact ⟨.first, ⟨proposal.mem, a.joins_people, proposal.pending, Role.of_first a, turn⟩, shown⟩
  | courts vacant liker oldest shown =>
    obtain rfl := liker.second
    have joins : a.joins a.second a.first := a.joins_comm _ _ ▸ a.joins_people
    have role := Role.of_person (register.distinct a liker.mem) .second
    have turn := awaiting_of_awaitsReply liker.waits
    exact ⟨.second, ⟨liker.mem, joins, liker.pending, role, turn⟩, shown⟩

theorem assures_next {person : Person} (described : s.Describes user person) (somebody : user ≠ 0)
    (shown : s.shown link v = .ok partner) (retries : Nat) :
    s.Assures link ((Call.next retries ⟨user⟩).program ruler) fun result s' =>
      result = .ok (.partner partner) ∧ s' = s := by
  refine assures_of_all fun ventures => ?_
  obtain ⟨told, pursues, same⟩ := ventures.pursues described somebody
  cases pursues with
  | rests nobody =>
    obtain ⟨⟨vacant, unliked⟩, _⟩ := nobody.resolve_right fun cut => cut.1
    cases presents with
    | offers proposal own => exact absurd own (vacant a proposal)
    | courts _ liker => exact absurd liker (unliked a)
  | takesUp takes partly whole =>
    obtain ⟨rfl, rfl⟩ := whole.resolve_right fun cut => cut.1
    obtain ⟨rfl, rfl, rfl⟩ := takes.of_presents presents register
    rw [shown] at same
    exact ⟨Option.some.inj same, partly.idle rfl⟩

end Presents

theorem TakesUp.presents (takes : s.TakesUp user a owed v base)
    (partly : base.Partly a.id owed owed s') (register : s.IsRegister) (coherent : s'.IsCoherent) :
    s'.Presents user a v := by
  have offers (mem : a ∈ s'.attempts) (pending : a.isPending) (own : a.first = user)
      (shown : s'.lastHappening? a.id = some .shownToFirst) : s'.Presents user a a.second := by
    have proposal : s'.IsProposal a := ⟨mem, pending, by rw [stage, shown]; rfl⟩
    refine .offers proposal own ?_ shown
    intro b proposal' own'
    exact coherent.proposals b a proposal' proposal (own'.trans own.symm)
  have tells := partly.tells
  cases takes with
  | resumes proposal own =>
    refine offers ?_ proposal.pending own ?_
    · rw [tells.attempts]
      exact proposal.mem
    · rw [tells.lastHappening?_append, Happening.last_missing]
  | courts vacant liker oldest =>
    by_cases liked : s.lastHappening? a.id = some .firstLiked
    · rw [if_pos liked] at tells
      exact Courted.presents ⟨vacant, liker, oldest, liked, tells⟩ register
    · rw [if_neg liked] at partly
      rw [partly.idle rfl]
      exact .courts vacant liker oldest ((awaitsReply_iff.1 liker.waits).resolve_left liked)
  | opens clock vacant unliked own admits known =>
    refine offers ?_ admits.pending own ?_
    · rw [tells.attempts]
      exact List.mem_append_right _ List.mem_cons_self
    · rw [tells.lastHappening?_append]
      rfl

/-- The attempt behind the showcase that `nextPartner` has returned is presented from then on. -/
theorem Ventures.presents
    (ventures : s.Ventures link faulty ((Call.next retries ⟨user⟩).program ruler)
      (some (.ok (.partner partner))) s') (register : s.IsRegister) (coherent : s'.IsCoherent) :
    ∃ a, s'.Presents user a partner.profile.userId ∧
      s'.shown link partner.profile.userId = .ok partner := by
  obtain ⟨_, a, owed, v, base, takes, partly, shown⟩ := ventures.takesUp_of_partner
  rw [userId_of_shown shown]
  refine ⟨a, takes.presents partly register coherent, ?_⟩
  rw [ventures.samePeople.shown, shown]

section Sequences

variable {s₀ : Store} {t : Traffic}

/-- What `nextPartner` shows can be answered. After calls one at a time, any of them cut off, the
two people have one pending attempt, its last event shows it to the side of the caller, and a
`swipe` with either verdict succeeds. -/
theorem shown_can_be_answered (fresh : s₀.IsFresh)
    (reaches : Traffic.Reaches ruler .sequential (.opening s₀) t) (quiet : t.isQuiet)
    (shown : t.store.Ventures link faulty ((Call.next retries ⟨user⟩).program ruler)
      (some (.ok (.partner partner))) s) :
    ∃ a, s.attempts.filter (fun b => b.joins user partner.profile.userId && b.isPending) = [a] ∧
      (a.first = user → s.lastHappening? a.id = some .shownToFirst) ∧
      (a.second = user → s.lastHappening? a.id = some .shownToSecond) ∧
      ∀ verdict, s.Assures link
        ((Call.swipe ⟨user⟩ partner.profile.userId verdict).program ruler)
        fun result _ => result = .ok .recorded := by
  have coherent := reaches.isCoherent_of_ventures fresh quiet shown
  obtain ⟨⟨somebody, _⟩, _⟩ := shown.takesUp_of_partner
  obtain ⟨a, presents, _⟩ := shown.presents (reaches.isCoherent fresh).register coherent
  obtain ⟨side, waits, told⟩ := presents.awaits coherent.register
  have apart := coherent.register.distinct a waits.mem
  have person := Role.person_of waits.role
  refine ⟨a, coherent.filter_eq_singleton waits.mem waits.joins waits.pending, ?_, ?_, ?_⟩
  · intro own
    cases side with
    | first => exact told
    | second => exact absurd (own.trans person.symm) apart
  · intro own
    cases side with
    | first => exact absurd (person.trans own.symm) apart
    | second => exact told
  · intro verdict
    refine (waits.assures_swipe ruler coherent.exclusive somebody verdict).mono ?_
    exact fun heard => heard.1

/-- Calls in a village, one at a time, each of which may be dropped. -/
def lone (moves : List Traffic.Move) : Traffic :=
  (Traffic.Scene.village (fun t _ => t.isQuiet) true).perform (.opening (village [1, 2, 3])) moves

theorem reaches_lone (moves : List Traffic.Move) :
    Traffic.Reaches (fun _ _ => some 0) .sequential (.opening (village [1, 2, 3])) (lone moves) ∧
      (lone moves).store.IsNumbered := by
  have numbered := isNumbered_village [1, 2, 3]
  have reaches := Traffic.Scene.reaches_perform (t := .opening (village [1, 2, 3]))
    (Traffic.Scene.village (fun t _ => t.isQuiet) true) numbered moves
  exact ⟨reaches.mono (fun _ _ quiet => quiet) fun _ => trivial,
    Traffic.Scene.isNumbered_perform _ numbered moves⟩

def partnerOf? : Except MatchError Call.Result → Option UserId
  | .ok (.partner partner) => some partner.profile.userId
  | _ => none

theorem exists_partner (link : String → String) (numbered : s.IsNumbered)
    (around : Surroundings) (user v : UserId)
    (computed : partnerOf? (s.complete link around (seeker user)).1 = some v) :
    ∃ partner s', partner.profile.userId = v ∧
      s' = (s.complete link around (seeker user)).2 ∧
      s.Ventures link False (seeker user) (some (.ok (.partner partner))) s' := by
  have asks := ventures_complete link False numbered around (seeker user)
  unfold partnerOf? at computed
  split at computed
  · next partner told =>
    rw [told] at asks
    exact ⟨partner, _, Option.some.inj computed, rfl, asks⟩
  · cases computed

/-- The second person of a liked attempt asks for a partner, and is cut off after
`shownToSecond`. -/
def cutOffAfterShown : Traffic :=
  lone <| [.start (.next 0 ⟨1⟩)] ++ Traffic.turns 0 ++ [.start (.swipe ⟨1⟩ 2 .like)] ++
    Traffic.turns 1 ++ [.start (.next 0 ⟨2⟩)] ++ List.replicate 6 (.turn 2) ++ [.drop 2]

theorem reaches_cutOffAfterShown :
    Traffic.Reaches (fun _ _ => some 0) .sequential (.opening (village [1, 2, 3]))
        cutOffAfterShown ∧
      cutOffAfterShown.store.IsNumbered := reaches_lone _

theorem shown_can_be_answered_cutOffAfterShown :
    cutOffAfterShown.store.story 1 = [.created, .shownToFirst, .firstLiked, .shownToSecond] ∧
      ∃ partner s, partner.profile.userId = 1 ∧
        cutOffAfterShown.store.Ventures ("photos/" ++ ·) False (seeker 2)
          (some (.ok (.partner partner))) s ∧
        ∃ a, s.attempts.filter (fun b => b.joins 2 partner.profile.userId && b.isPending) = [a] ∧
          (a.first = 2 → s.lastHappening? a.id = some .shownToFirst) ∧
          (a.second = 2 → s.lastHappening? a.id = some .shownToSecond) ∧
          ∀ verdict, s.Assures ("photos/" ++ ·)
            ((Call.swipe ⟨2⟩ partner.profile.userId verdict).program fun _ _ => some 0)
            fun result _ => result = .ok .recorded := by
  obtain ⟨reaches, numbered⟩ := reaches_cutOffAfterShown
  have quiet : cutOffAfterShown.isQuiet := by decide +kernel
  obtain ⟨partner, s, same, _, shown⟩ :=
    exists_partner ("photos/" ++ ·) numbered { photoBase := "photos" } 2 1 (by decide +kernel)
  refine ⟨by decide +kernel, partner, s, same, shown, ?_⟩
  exact shown_can_be_answered (isFresh_village [1, 2, 3]) reaches quiet shown

/-- A second `nextPartner` returns the same showcase and writes nothing. -/
theorem asking_again_changes_nothing (fresh : s₀.IsFresh)
    (reaches : Traffic.Reaches ruler .sequential (.opening s₀) t) (quiet : t.isQuiet)
    (shown : t.store.Ventures link faulty ((Call.next retries ⟨user⟩).program ruler)
      (some (.ok (.partner partner))) s) (again : Nat) :
    s.Assures link ((Call.next again ⟨user⟩).program ruler) fun result s' =>
      result = .ok (.partner partner) ∧ s' = s := by
  have coherent := reaches.isCoherent_of_ventures fresh quiet shown
  obtain ⟨⟨somebody, person, described⟩, _⟩ := shown.takesUp_of_partner
  obtain ⟨a, presents, known⟩ := shown.presents (reaches.isCoherent fresh).register coherent
  exact presents.assures_next coherent.register (shown.samePeople.describes described) somebody
    known again

/-- A call for a partner is cut off once it has opened an attempt. -/
def cutOffAfterOpening : Traffic :=
  lone <| [.start (.next 0 ⟨2⟩)] ++ Traffic.turns 0 ++ [.start (.next 0 ⟨1⟩)] ++
    List.replicate 14 (.turn 1) ++ [.drop 1]

theorem reaches_cutOffAfterOpening :
    Traffic.Reaches (fun _ _ => some 0) .sequential (.opening (village [1, 2, 3]))
        cutOffAfterOpening ∧
      cutOffAfterOpening.store.IsNumbered := reaches_lone _

theorem asking_again_changes_nothing_cutOffAfterOpening :
    cutOffAfterOpening.store.attempts.map Attempt.people = [(2, 1), (1, 3)] ∧
      cutOffAfterOpening.store.story 2 = [] ∧
      ∃ partner s, partner.profile.userId = 3 ∧ s.story 2 = [.created, .shownToFirst] ∧
        cutOffAfterOpening.store.Ventures ("photos/" ++ ·) False (seeker 1)
          (some (.ok (.partner partner))) s ∧
        ∀ again, s.Assures ("photos/" ++ ·) ((Call.next again ⟨1⟩).program fun _ _ => some 0)
          fun result s' => result = .ok (.partner partner) ∧ s' = s := by
  obtain ⟨reaches, numbered⟩ := reaches_cutOffAfterOpening
  have quiet : cutOffAfterOpening.isQuiet := by decide +kernel
  obtain ⟨partner, s, same, computed, shown⟩ :=
    exists_partner ("photos/" ++ ·) numbered { photoBase := "photos" } 1 3 (by decide +kernel)
  have told : s.story 2 = [.created, .shownToFirst] := by
    rw [computed]
    decide +kernel
  refine ⟨by decide +kernel, by decide +kernel, partner, s, same, told, shown, ?_⟩
  exact asking_again_changes_nothing (isFresh_village [1, 2, 3]) reaches quiet shown

end Sequences

end Store
end Matchmaking
