import Mathlib.Data.Finset.Card
import Matchmaking.Proofs.Outcome.Presentation
import Matchmaking.Proofs.Outcome.Touch
/-! No liker is left waiting. A user who alternates `nextPartner` and `swipe` comes to every attempt
that waits for them: first to their own proposals, then to likes of others, the oldest first. Each
answer takes one attempt off this queue, and no call puts one on. -/
namespace Matchmaking
namespace Store

variable {link : String → String} {ruler : Geo.Ruler} {s s₀ s₁ s₂ base : Store}
  {user candidate v : UserId} {a b d : Attempt} {side : Role} {verdict : Verdict}
  {owed : List Happening} {partner : Showcase} {calls : List Call}

section Waiting

def waiting (s : Store) (user : UserId) (side : Role) : Finset Attempt :=
  s.attempts.toFinset.filter fun a =>
    a.person side = user ∧ a.isPending ∧ (s.stage a.id).awaiting = some side

/-- Older likes of the second person of the attempt. -/
def rivals (s : Store) (a : Attempt) : Finset Attempt :=
  (s.waiting a.second .second).filter fun b => b.precedes a ∧ b.id ≠ a.id

/-- How many attempts are served to the second person before this one. -/
def ahead (s : Store) (a : Attempt) : Nat :=
  (s.waiting a.second .first).card + (s.rivals a).card

theorem mem_waiting : a ∈ s.waiting user side ↔ a ∈ s.attempts ∧ a.person side = user ∧
    a.isPending ∧ (s.stage a.id).awaiting = some side := by
  rw [waiting, Finset.mem_filter, List.mem_toFinset]

theorem mem_waiting_first : a ∈ s.waiting user .first ↔ s.IsProposal a ∧ a.first = user := by
  rw [mem_waiting, awaiting_eq_first]
  constructor
  · rintro ⟨mem, own, pending, begun⟩
    exact ⟨⟨mem, pending, begun⟩, own⟩
  · rintro ⟨⟨mem, pending, begun⟩, own⟩
    exact ⟨mem, own, pending, begun⟩

theorem mem_waiting_second : a ∈ s.waiting user .second ↔ s.IsLiker user a := by
  rw [mem_waiting, ← awaitsReply_iff_awaiting]
  constructor
  · rintro ⟨mem, own, pending, waits⟩
    exact ⟨mem, own, pending, waits⟩
  · rintro ⟨mem, own, pending, waits⟩
    exact ⟨mem, own, pending, waits⟩

theorem mem_rivals :
    b ∈ s.rivals a ↔ s.IsLiker a.second b ∧ b.precedes a ∧ b.id ≠ a.id := by
  rw [rivals, Finset.mem_filter, mem_waiting_second]

theorem waiting_congr (attempts : s₁.attempts = s.attempts)
    (stages : ∀ id, s₁.stage id = s.stage id)
    (user : UserId) (side : Role) : s₁.waiting user side = s.waiting user side := by
  ext b
  rw [mem_waiting, mem_waiting, attempts, stages]

theorem ahead_congr (attempts : s₁.attempts = s.attempts) (stages : ∀ id, s₁.stage id = s.stage id)
    (a : Attempt) : s₁.ahead a = s.ahead a := by
  rw [ahead, rivals, waiting_congr attempts stages, waiting_congr attempts stages, ahead, rivals]

end Waiting

section Rounds

theorem Settles.waiting (settles : s.Settles link d side verdict s₁)
    (waits : s.Awaits d side user candidate) (register : s.IsRegister) (side' : Role) :
    s₁.waiting user side' = (s.waiting user side').erase d := by
  have touches := settles.touches waits register
  ext b
  rw [Finset.mem_erase, mem_waiting, mem_waiting]
  by_cases same : b.id = d.id
  · constructor
    · rintro ⟨mem, own, _, turn⟩
      rw [same] at turn
      exact absurd turn (settles.passes waits register mem same own)
    · rintro ⟨other, mem, _⟩
      exact absurd (register.unique b mem d waits.mem same) other
  · have other : b ≠ d := fun here => same (congrArg Attempt.id here)
    rw [touches.attempts b same, touches.stage same]
    exact (and_iff_right other).symm

theorem notMem_rivals (proposal : d ∈ s.waiting user .first) : d ∉ s.rivals a := by
  intro rival
  have begun := (mem_waiting_first.1 proposal).1.begun
  have turn := awaitsReply_iff_awaiting.1 (mem_rivals.1 rival).1.waits
  rw [begun] at turn
  cases turn

/-- Each answer brings every attempt behind one forward. -/
theorem Settles.ahead (settles : s.Settles link d side verdict s₁)
    (waits : s.Awaits d side a.second candidate) (register : s.IsRegister)
    (before : d ∈ s.waiting a.second .first ∨ d ∈ s.rivals a) : s₁.ahead a + 1 = s.ahead a := by
  have rivals : s₁.rivals a = (s.rivals a).erase d := by
    rw [Store.rivals, settles.waiting waits register, Finset.filter_erase, Store.rivals]
  rw [Store.ahead, settles.waiting waits register, rivals, Store.ahead]
  rcases before with proposal | rival
  · rw [Finset.erase_eq_of_notMem (notMem_rivals proposal),
      ← Finset.card_erase_add_one proposal]
    omega
  · have apart : d ∉ s.waiting a.second .first := fun proposal => notMem_rivals proposal rival
    rw [Finset.erase_eq_of_notMem apart, ← Finset.card_erase_add_one rival]
    omega

theorem ahead_pos (before : d ∈ s.waiting a.second .first ∨ d ∈ s.rivals a) : 0 < s.ahead a := by
  rw [ahead]
  rcases before with proposal | rival
  · have := Finset.card_pos.2 ⟨d, proposal⟩
    omega
  · have := Finset.card_pos.2 ⟨d, rival⟩
    omega

/-- The user shown to a person who is liked is the liker, if that one is the first in the queue, and
stands before the liker otherwise. -/
theorem Presents.eq_or_before (presents : s.Presents a.second d v) (liker : s.IsLiker a.second a)
    (register : s.IsRegister) :
    d = a ∧ v = a.first ∧ s.ahead a = 0 ∨
      d.id ≠ a.id ∧ (d ∈ s.waiting a.second .first ∨ d ∈ s.rivals a) := by
  cases presents with
  | offers proposal own only shown =>
    right
    refine ⟨?_, Or.inl (mem_waiting_first.2 ⟨proposal, own⟩)⟩
    intro same
    have turn := awaitsReply_iff_awaiting.1 liker.waits
    rw [← same, proposal.begun] at turn
    cases turn
  | courts vacant liker' oldest shown =>
    by_cases same : d.id = a.id
    · left
      obtain rfl := register.unique d liker'.mem a liker.mem same
      refine ⟨rfl, rfl, ?_⟩
      have free : s.waiting d.second .first = ∅ := by
        apply Finset.eq_empty_of_forall_notMem
        intro b mem
        obtain ⟨proposal, own⟩ := mem_waiting_first.1 mem
        exact vacant b proposal own
      have longest : s.rivals d = ∅ := by
        apply Finset.eq_empty_of_forall_notMem
        intro b mem
        obtain ⟨rival, before, other⟩ := mem_rivals.1 mem
        exact other (Attempt.id_eq_of_precedes before (oldest b rival))
      rw [ahead, free, longest]
      rfl
    · exact Or.inr ⟨same, Or.inr (mem_rivals.2 ⟨liker', oldest a liker, same⟩)⟩

/-- A call that takes up an attempt there is leaves everything where it stands. -/
theorem TakesUp.stages (takes : s.TakesUp user d owed v base)
    (partly : base.Partly d.id owed owed s₁) (liker : s.IsLiker user a) :
    base = s ∧ ∀ id, s₁.stage id = s.stage id := by
  have tells := partly.tells
  have elsewhere {id : AttemptId} (ne : id ≠ d.id) (same : base = s) :
      s₁.stage id = s.stage id := by
    rw [Store.stage, tells.lastHappening?_of_ne ne, same, Store.stage]
  cases takes with
  | resumes proposal own =>
    refine ⟨rfl, ?_⟩
    intro id
    by_cases here : id = d.id
    · rw [here, proposal.begun, Store.stage, tells.lastHappening?_append, Happening.last_missing]
      rfl
    · exact elsewhere here rfl
  | courts vacant liker' oldest =>
    refine ⟨rfl, ?_⟩
    intro id
    by_cases liked : s.lastHappening? d.id = some .firstLiked
    · rw [if_pos liked] at tells
      by_cases here : id = d.id
      · rw [here, Store.stage, tells.lastHappening?_self, Store.stage, liked]
        rfl
      · exact elsewhere here rfl
    · rw [if_neg liked] at partly
      rw [partly.idle rfl]
  | opens _ _ unliked => exact absurd liker (unliked a)

theorem TakesUp.known (takes : s.TakesUp user d owed v base) (books : s.Books link)
    (liker : s.IsLiker user a) : (s.profileOf? v).isSome := by
  cases takes with
  | resumes proposal own => exact books.known d proposal.mem .second
  | courts vacant liker' oldest => exact books.known d liker'.mem .first
  | opens _ _ unliked => exact absurd liker (unliked a)

/-- `nextPartner` of a person who is liked returns a showcase and leaves all stages as they are. -/
theorem Ventures.next_of_liker {retries : Nat} {result : Except MatchError Call.Result}
    {person : Person}
    (ventures : s.Ventures link False ((Call.next retries ⟨user⟩).program ruler) (some result) s₁)
    (described : s.Describes user person) (somebody : user ≠ 0) (liker : s.IsLiker user a)
    (inOrder : s.InOrder link) (coherent : s₁.IsCoherent) :
    ∃ partner d, result = .ok (.partner partner) ∧
      s₁.Presents user d partner.profile.userId ∧ s₁.attempts = s.attempts ∧
      ∀ id, s₁.stage id = s.stage id := by
  obtain ⟨told, pursues, same⟩ := ventures.pursues described somebody
  cases pursues with
  | rests nobody =>
    obtain ⟨⟨_, unliked⟩, _⟩ := nobody.resolve_right fun cut => cut.1
    exact absurd liker (unliked a)
  | @takesUp d owed _ v base _ _ takes partly whole =>
    obtain ⟨rfl, rfl⟩ := whole.resolve_right fun cut => cut.1
    obtain ⟨partner, shown⟩ := exists_shown link (takes.known inOrder.books liker)
    obtain ⟨rfl, stages⟩ := takes.stages partly liker
    have presents := takes.presents partly inOrder.books.register coherent
    rw [shown] at same
    rw [← userId_of_shown shown] at presents
    exact ⟨partner, d, Option.some.inj same, presents, partly.tells.attempts, stages⟩

end Rounds

def OpensNone (s s' : Store) : Prop := s'.attempts.map Attempt.id = s.attempts.map Attempt.id

/-- If only this user acts, alternating `nextPartner` and a `swipe` on the user shown with any
verdict, then every call succeeds, none opens an attempt, and after that many answers the liker is
shown. -/
def ComesUp (link : String → String) (ruler : Geo.Ruler) (user liker : UserId) :
    Nat → Store → Prop
  | 0, s => ∀ retries, s.Assures link ((Call.next retries ⟨user⟩).program ruler) fun result s₁ =>
      s.OpensNone s₁ ∧ ∃ partner, result = .ok (.partner partner) ∧
        partner.profile.userId = liker
  | k + 1, s => ∀ retries, s.Assures link ((Call.next retries ⟨user⟩).program ruler)
      fun result s₁ => s.OpensNone s₁ ∧ ∃ partner, result = .ok (.partner partner) ∧
        ∀ verdict, s₁.Assures link
          ((Call.swipe ⟨user⟩ partner.profile.userId verdict).program ruler)
          fun result s₂ => result = .ok .recorded ∧ s₁.OpensNone s₂ ∧
            ComesUp link ruler user liker k s₂

/-- Completed calls have led to that store, in which the first person of the attempt likes the
second one, whose records are complete. -/
structure IsQueued (link : String → String) (ruler : Geo.Ruler) (s₀ : Store) (a : Attempt)
    (s : Store) : Prop where
  undergoes : ∃ calls, s₀.Undergoes link ruler calls s
  liker : s.IsLiker a.second a
  complete : ∃ person, s.Describes a.second person

namespace IsQueued

variable (queued : IsQueued link ruler s₀ a s) (fresh : s₀.IsFresh) (somebody : a.second ≠ 0)

include queued

theorem goes_on {c : Call} {result : Except MatchError Call.Result}
    (ventures : s.Ventures link False (c.program ruler) (some result) s₁)
    (liker : s₁.IsLiker a.second a) : IsQueued link ruler s₀ a s₁ := by
  obtain ⟨calls, undergoes⟩ := queued.undergoes
  obtain ⟨person, described⟩ := queued.complete
  exact ⟨⟨_, .next undergoes ventures.yields_of_ended⟩, liker, person,
    ventures.samePeople.describes described⟩

include fresh

theorem isCoherent : s.IsCoherent := by
  obtain ⟨calls, undergoes⟩ := queued.undergoes
  exact undergoes.isCoherent fresh

include somebody

/-- `nextPartner` leaves the queue as it is. -/
theorem asks {retries : Nat} {result : Except MatchError Call.Result}
    (ventures : s.Ventures link False ((Call.next retries ⟨a.second⟩).program ruler) (some result)
      s₁) :
    ∃ partner d, result = .ok (.partner partner) ∧
      s₁.Presents a.second d partner.profile.userId ∧ s.OpensNone s₁ ∧ s₁.ahead a = s.ahead a ∧
      IsQueued link ruler s₀ a s₁ := by
  obtain ⟨calls, undergoes⟩ := queued.undergoes
  obtain ⟨person, described⟩ := queued.complete
  have coherent := (undergoes.next ventures.yields_of_ended).isCoherent fresh
  obtain ⟨partner, d, told, presents, attempts, stages⟩ :=
    ventures.next_of_liker described somebody queued.liker (undergoes.inOrder fresh) coherent
  have liker : s₁.IsLiker a.second a := by
    rw [← mem_waiting_second, waiting_congr attempts stages, mem_waiting_second]
    exact queued.liker
  exact ⟨partner, d, told, presents, congrArg (List.map Attempt.id) attempts,
    ahead_congr attempts stages a, queued.goes_on ventures liker⟩

/-- A `swipe` on another user brings the liker one forward. -/
theorem answers (presents : s.Presents a.second d v) (other : d.id ≠ a.id)
    (before : d ∈ s.waiting a.second .first ∨ d ∈ s.rivals a) (verdict : Verdict)
    {result : Except MatchError Call.Result}
    (ventures : s.Ventures link False ((Call.swipe ⟨a.second⟩ v verdict).program ruler)
      (some result) s₁) :
    result = .ok .recorded ∧ s.OpensNone s₁ ∧ s₁.ahead a + 1 = s.ahead a ∧
      IsQueued link ruler s₀ a s₁ := by
  have coherent := queued.isCoherent fresh
  obtain ⟨side, waits, _⟩ := presents.awaits coherent.register
  obtain ⟨told, settles⟩ :=
    (waits.assures_swipe ruler coherent.exclusive somebody verdict).all ventures
  have liker : s₁.IsLiker a.second a := by
    rw [← mem_waiting_second, settles.waiting waits coherent.register, Finset.mem_erase]
    exact ⟨fun same => other (congrArg Attempt.id same.symm), mem_waiting_second.2 queued.liker⟩
  exact ⟨told, settles.ids, settles.ahead waits coherent.register before,
    queued.goes_on ventures liker⟩

theorem comesUp : ComesUp link ruler a.second a.first (s.ahead a) s := by
  generalize position : s.ahead a = k
  induction k generalizing s with
  | zero =>
    refine fun retries => assures_of_all fun ventures => ?_
    obtain ⟨partner, d, told, presents, none, still, queued⟩ :=
      queued.asks fresh somebody ventures
    refine ⟨none, partner, told, ?_⟩
    rcases presents.eq_or_before queued.liker (queued.isCoherent fresh).register with
      ⟨_, same, _⟩ | ⟨_, before⟩
    · exact same
    · have := ahead_pos before
      omega
  | succ k ih =>
    refine fun retries => assures_of_all fun ventures => ?_
    obtain ⟨partner, d, told, presents, none, still, queued⟩ :=
      queued.asks fresh somebody ventures
    refine ⟨none, partner, told, ?_⟩
    rcases presents.eq_or_before queued.liker (queued.isCoherent fresh).register with
      ⟨_, _, first⟩ | ⟨other, before⟩
    · omega
    · refine fun verdict => assures_of_all fun ventures => ?_
      obtain ⟨heard, none, forward, queued⟩ :=
        queued.answers fresh somebody presents other before verdict ventures
      exact ⟨heard, none, ih queued (by omega)⟩

end IsQueued

/-- No liker is starved: if a person who is liked alternates `nextPartner` and `swipe`, the liker is
shown after as many answers as there are attempts ahead of the like. -/
theorem no_liker_is_starved (fresh : s₀.IsFresh) (undergoes : s₀.Undergoes link ruler calls s)
    (mem : a ∈ s.attempts) (pending : a.isPending)
    (waits : (s.stage a.id).awaiting = some .second)
    (complete : ∃ person, s.Describes a.second person) (somebody : a.second ≠ 0) :
    ComesUp link ruler a.second a.first (s.ahead a) s := by
  have liker : s.IsLiker a.second a := ⟨mem, rfl, pending, awaitsReply_iff_awaiting.2 waits⟩
  have queued : IsQueued link ruler s₀ a s := ⟨⟨calls, undergoes⟩, liker, complete⟩
  exact queued.comesUp fresh somebody

section Likes

def likedByTwo : Store :=
  (village [1, 2, 3, 4]).completeAll ("photos/" ++ ·) { photoBase := "photos" }
    (fun _ _ => some 0)
    [.next 0 ⟨1⟩, .next 0 ⟨3⟩, .swipe ⟨3⟩ 1 .like, .next 0 ⟨4⟩, .swipe ⟨4⟩ 1 .like]

/-- User 1 sees the user they were shown, the first liker, and then the second one. -/
theorem no_liker_is_starved_likedByTwo :
    likedByTwo.attempts.map Attempt.people = [(1, 2), (3, 1), (4, 1)] ∧
      ∃ a ∈ likedByTwo.attempts, a.people = (4, 1) ∧ a.isPending ∧
        (likedByTwo.stage a.id).awaiting = some .second ∧ likedByTwo.ahead a = 2 ∧
        ComesUp ("photos/" ++ ·) (fun _ _ => some 0) a.second a.first (likedByTwo.ahead a)
          likedByTwo := by
  have numbered := isNumbered_village [1, 2, 3, 4]
  have found : ∃ a ∈ likedByTwo.attempts, a.people = (4, 1) ∧ a.isPending ∧
      (likedByTwo.stage a.id).awaiting = some .second ∧ likedByTwo.ahead a = 2 := by
    decide +kernel
  obtain ⟨a, mem, people, pending, waits, behind⟩ := found
  have second : a.second = 1 := congrArg Prod.snd people
  refine ⟨by decide +kernel, a, mem, people, pending, waits, behind, ?_⟩
  refine no_liker_is_starved (isFresh_village [1, 2, 3, 4])
    (Undergoes.none.completeAll numbered _ _) mem pending waits ?_ ?_
  · rw [second]
    exact ⟨⟨_, _⟩, rfl, rfl, by decide +kernel⟩
  · rw [second]
    decide

def likeOfZero : Store :=
  (village [0, 1]).completeAll ("photos/" ++ ·) { photoBase := "photos" } (fun _ _ => some 0)
    [.next 0 ⟨1⟩, .swipe ⟨1⟩ 0 .like]

theorem not_comesUp_of_nobody {liker : UserId} {n : Nat} : ¬ ComesUp link ruler 0 liker n s := by
  intro comesUp
  have fails : s.Ventures link False ((Call.next 0 ⟨0⟩).program ruler)
      (some (.error .unauthenticated)) s := .fail s _
  cases n with
  | zero =>
    obtain ⟨_, _, told, _⟩ := (comesUp 0).all fails
    cases told
  | succ n =>
    obtain ⟨_, _, told, _⟩ := (comesUp 0).all fails
    cases told

/-- For user zero `nextPartner` ends in `unauthenticated`, whatever attempts wait. -/
theorem liker_of_nobody_is_starved :
    ¬ ∀ (link : String → String) (ruler : Geo.Ruler) (s₀ s : Store) (calls : List Call)
      (a : Attempt), s₀.IsFresh → s₀.Undergoes link ruler calls s → a ∈ s.attempts →
        a.isPending → (s.stage a.id).awaiting = some .second →
        (∃ person, s.Describes a.second person) →
        ComesUp link ruler a.second a.first (s.ahead a) s := by
  intro claimed
  have found : ∃ a ∈ likeOfZero.attempts, a.second = 0 ∧ a.isPending ∧
      (likeOfZero.stage a.id).awaiting = some .second := by
    decide +kernel
  obtain ⟨a, mem, second, pending, waits⟩ := found
  have comesUp := claimed ("photos/" ++ ·) (fun _ _ => some 0) (village [0, 1]) likeOfZero _ a
    (isFresh_village [0, 1]) (Undergoes.none.completeAll (isNumbered_village [0, 1]) _ _) mem
    pending waits (by rw [second]; exact ⟨⟨_, _⟩, rfl, rfl, by decide +kernel⟩)
  rw [second] at comesUp
  exact not_comesUp_of_nobody comesUp

end Likes

end Store
end Matchmaking
