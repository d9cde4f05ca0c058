import Mathlib.Logic.Relation
import Matchmaking.Proofs.Outcome.Answering
import Matchmaking.Proofs.Outcome.Pursuit
/-! Calls for a partner that are cut off, one after the other, and a last one that is not. Each call
takes up the attempt that was taken up before, and owes exactly what is still missing, so that in
the end no more is written than one call writes. -/
namespace Matchmaking

theorem Happening.missing_of_split {told rest : List Happening}
    (split : told ++ rest = [.created, .shownToFirst]) : missing told.getLast? = rest := by
  rcases told with _ | ⟨h, _ | ⟨k, told⟩⟩
  · exact split.symm
  · simp only [List.cons_append, List.cons.injEq] at split
    obtain ⟨rfl, rfl⟩ := split
    rfl
  · simp only [List.cons_append, List.cons.injEq, List.append_eq_nil_iff] at split
    obtain ⟨rfl, rfl, rfl, rfl⟩ := split
    rfl

namespace Store

variable {link : String → String} {ruler : Geo.Ruler} {s s₁ s' : Store}
  {user v : UserId} {a b : Attempt} {id other : AttemptId} {h : Happening}
  {hs owed told rest : List Happening} {base : Store}

theorem exists_shown (link : String → String) (known : (s.profileOf? v).isSome) :
    ∃ partner, s.shown link v = .ok partner := by
  obtain ⟨profile, found⟩ := Option.isSome_iff_exists.1 known
  rw [shown, found]
  exact ⟨_, rfl⟩

structure Courted (s : Store) (user : UserId) (a : Attempt) (s₁ : Store) : Prop where
  vacant : s.IsVacant user
  liker : s.IsLiker user a
  oldest : ∀ b, s.IsLiker user b → a.precedes b
  liked : s.lastHappening? a.id = some .firstLiked
  tells : s.Tells a.id [.shownToSecond] s₁

structure Opened (s : Store) (user : UserId) (a : Attempt) (told rest : List Happening)
    (s₁ : Store) : Prop where
  vacant : s.IsVacant user
  own : a.first = user
  admits : s.Admits a
  known : (s.profileOf? a.second).isSome
  split : told ++ rest = [.created, .shownToFirst]
  partly : ∃ clock, (s.withAttempt a clock).Partly a.id (told ++ rest) told s₁

/-- Calls for a partner have left that store, and the last one may have been cut off before it has
told the rest of what it had to tell. -/
inductive Leaves (s : Store) (user : UserId) : List Happening → Store → Prop
  | nothing : Leaves s user [] s
  | courted {a : Attempt} {s₁ : Store} (courted : s.Courted user a s₁) : Leaves s user [] s₁
  | opened {a : Attempt} {told rest : List Happening} {s₁ : Store}
      (opened : s.Opened user a told rest s₁) : Leaves s user rest s₁

namespace Courted

variable (courted : s.Courted user a s₁)

include courted

theorem isVacant : s₁.IsVacant user := by
  intro b proposal
  have begun := proposal.begun
  have elsewhere : b.id ≠ a.id := by
    intro here
    rw [here, stage, courted.tells.lastHappening?_self] at begun
    cases begun
  rw [stage, courted.tells.lastHappening?_of_ne elsewhere] at begun
  exact courted.vacant b ⟨courted.tells.attempts ▸ proposal.mem, proposal.pending, begun⟩

theorem isLiker_iff (register : s.IsRegister) : s₁.IsLiker user b ↔ s.IsLiker user b := by
  have attempts := courted.tells.attempts
  have waits (mem : b ∈ s.attempts) : s₁.awaitsReply b ↔ s.awaitsReply b := by
    by_cases here : b.id = a.id
    · have same := register.unique b mem a courted.liker.mem here
      subst same
      refine iff_of_true ?_ courted.liker.waits
      exact awaitsReply_iff.2 (Or.inr courted.tells.lastHappening?_self)
    · rw [awaitsReply_iff, awaitsReply_iff, courted.tells.lastHappening?_of_ne here]
  constructor
  · rintro ⟨mem, second, pending, waiting⟩
    rw [attempts] at mem
    exact ⟨mem, second, pending, (waits mem).1 waiting⟩
  · rintro ⟨mem, second, pending, waiting⟩
    refine ⟨?_, second, pending, (waits mem).2 waiting⟩
    rwa [attempts]

theorem presents (register : s.IsRegister) : s₁.Presents user a a.first := by
  refine .courts courted.isVacant ?_ ?_ courted.tells.lastHappening?_self
  · exact (courted.isLiker_iff register).2 courted.liker
  · intro b liker
    exact courted.oldest b ((courted.isLiker_iff register).1 liker)

end Courted

namespace Opened

variable (opened : s.Opened user a told rest s₁)

include opened

theorem attempts : s₁.attempts = s.attempts ++ [a] := by
  obtain ⟨clock, partly⟩ := opened.partly
  rw [partly.tells.attempts, attempts_withAttempt]

theorem story (logged : ∀ e ∈ s.log, ∃ b ∈ s.attempts, b.id = e.attempt) :
    s₁.story a.id = told := by
  obtain ⟨clock, partly⟩ := opened.partly
  rw [partly.tells.story, Store.story, eventsOf_congr (log_withAttempt a clock),
    eventsOf_of_fresh logged opened.admits.fresh, List.map_nil, List.nil_append]

theorem isProposal (logged : ∀ e ∈ s.log, ∃ b ∈ s.attempts, b.id = e.attempt) :
    s₁.IsProposal a where
  mem := by
    rw [opened.attempts]
    exact List.mem_append_right _ List.mem_cons_self
  pending := opened.admits.pending
  begun := by
    apply IsUnanswered.stage
    rw [IsUnanswered, opened.story logged]
    have offers : ∀ h ∈ told ++ rest, h.isOffer := by
      rw [opened.split]
      decide
    exact fun h mem => offers h (List.mem_append_left rest mem)

theorem eq_of_isProposal (proposal : s₁.IsProposal b) (own : b.first = user) : b = a := by
  obtain ⟨clock, partly⟩ := opened.partly
  have mem := proposal.mem
  rw [opened.attempts] at mem
  rcases List.mem_append.1 mem with old | new
  · have begun := proposal.begun
    rw [stage, partly.tells.lastHappening?_of_ne (opened.admits.fresh b old),
      lastHappening?_congr (log_withAttempt a clock)] at begun
    exact absurd own (opened.vacant b ⟨old, proposal.pending, begun⟩)
  · exact List.mem_singleton.1 new

end Opened

section Resuming

/-- A first call for a partner leaves what calls leave. -/
theorem TakesUp.leaves (takes : s.TakesUp user a owed v base) (inOrder : s.InOrder link)
    (partly : base.Partly a.id owed told s') :
    ∃ rest, s.Leaves user rest s' ∧ (told = owed → rest = []) := by
  have untold (nothing : told = []) (same : base = s) : s.Leaves user [] s' := by
    rw [partly.idle nothing, same]
    exact .nothing
  cases takes with
  | resumes proposal own =>
    have story := inOrder.story_pending proposal.mem proposal.pending
    have begun := proposal.begun
    have part := partly.part
    rw [stage, lastHappening?_eq] at begun
    rw [lastHappening?_eq, State.missing_of_pending _ story begun] at part
    exact ⟨[], untold (List.prefix_nil.1 part) rfl, fun _ => rfl⟩
  | courts vacant liker oldest =>
    refine ⟨[], ?_, fun _ => rfl⟩
    have part := partly.part
    split at part
    · next liked =>
      rcases List.prefix_cons_iff.1 part with nothing | ⟨more, rfl, nothing⟩
      · exact untold nothing rfl
      · rw [List.prefix_nil.1 nothing] at partly
        exact .courted ⟨vacant, liker, oldest, liked, partly.tells⟩
    · exact untold (List.prefix_nil.1 part) rfl
  | opens clock vacant unliked own admits known =>
    obtain ⟨rest, split⟩ := partly.part
    refine ⟨rest, .opened ⟨vacant, own, admits, known, split, clock, split ▸ partly⟩, ?_⟩
    rintro rfl
    exact List.append_right_eq_self.1 split

theorem TakesUp.of_opened (takes : s₁.TakesUp user b owed v base)
    (opened : s.Opened user a told rest s₁)
    (logged : ∀ e ∈ s.log, ∃ b ∈ s.attempts, b.id = e.attempt) :
    b = a ∧ owed = rest ∧ v = a.second ∧ base = s₁ := by
  have proposal := opened.isProposal logged
  cases takes with
  | resumes proposal' own' =>
    have same := opened.eq_of_isProposal proposal' own'
    subst same
    refine ⟨rfl, ?_, rfl, rfl⟩
    rw [lastHappening?_eq, opened.story logged]
    exact Happening.missing_of_split opened.split
  | courts vacant => exact absurd opened.own (vacant a proposal)
  | opens _ vacant => exact absurd opened.own (vacant a proposal)

/-- One more call, cut off or not, leaves what calls leave. -/
theorem Leaves.goes_on (leaves : s.Leaves user rest s₁) (inOrder : s.InOrder link)
    (takes : s₁.TakesUp user a owed v base) (partly : base.Partly a.id owed told s') :
    ∃ rest', s.Leaves user rest' s' ∧ (told = owed → rest' = []) := by
  cases leaves with
  | nothing => exact takes.leaves inOrder partly
  | courted courted =>
    have register := inOrder.books.register
    obtain ⟨rfl, _, rfl⟩ :=
      takes.of_presents (courted.presents register) (register.congr courted.tells.attempts)
    rw [partly.idle (List.prefix_nil.1 partly.part)]
    exact ⟨[], .courted courted, fun _ => rfl⟩
  | opened opened =>
    obtain ⟨rfl, rfl, _, rfl⟩ := takes.of_opened opened inOrder.books.logged
    obtain ⟨vacant, own, admits, known, split, clock, before⟩ := opened
    have both := before.trans partly
    obtain ⟨rest', rfl⟩ := partly.part
    rw [← List.append_assoc] at split both
    refine ⟨rest', .opened ⟨vacant, own, admits, known, split, clock, both⟩, ?_⟩
    exact List.self_eq_append_right.1

theorem Leaves.samePeople (leaves : s.Leaves user rest s₁) : s.SamePeople s₁ := by
  cases leaves with
  | nothing => exact .refl s
  | courted courted => exact courted.tells.samePeople
  | opened opened =>
    obtain ⟨clock, partly⟩ := opened.partly
    exact .trans (.withAttempt s _ clock) partly.tells.samePeople

section Completing

variable {shown : Option (Except MatchError Showcase)}

/-- A last call that is not cut off leaves no event of a showing to be written. -/
theorem Leaves.settles (leaves : s.Leaves user rest s₁) (inOrder : s.InOrder link)
    (pursues : s₁.Pursues link False user shown s') : s.Leaves user [] s' := by
  cases pursues with
  | rests nobody =>
    cases leaves with
    | nothing => exact .nothing
    | courted courted => exact .courted courted
    | opened opened =>
      obtain ⟨⟨vacant, _⟩, _⟩ := nobody.resolve_right fun cut => cut.1
      exact absurd opened.own (vacant _ (opened.isProposal inOrder.books.logged))
  | takesUp takes partly whole =>
    obtain ⟨all, _⟩ := whole.resolve_right fun cut => cut.1
    obtain ⟨rest', leaves', ended⟩ := leaves.goes_on inOrder takes partly
    rwa [ended all] at leaves'

/-- The candidate of a call that was cut off is shown by the last call. -/
theorem Leaves.shows (leaves : s.Leaves user rest s₁) (inOrder : s.InOrder link)
    (pursues : s₁.Pursues link False user shown s') (mem : a ∈ s₁.attempts)
    (fresh : a ∉ s.attempts) :
    ∃ partner, s.shown link a.second = .ok partner ∧ shown = some (.ok partner) := by
  have people := leaves.samePeople
  cases leaves with
  | nothing => exact absurd mem fresh
  | courted courted => exact absurd (courted.tells.attempts ▸ mem) fresh
  | opened opened =>
    rw [opened.attempts] at mem
    have same := List.mem_singleton.1 ((List.mem_append.1 mem).resolve_left fresh)
    subst same
    obtain ⟨partner, told⟩ := exists_shown link opened.known
    refine ⟨partner, told, ?_⟩
    cases pursues with
    | rests nobody =>
      obtain ⟨⟨vacant, _⟩, _⟩ := nobody.resolve_right fun cut => cut.1
      exact absurd opened.own (vacant a (opened.isProposal inOrder.books.logged))
    | takesUp takes _ whole =>
      obtain ⟨_, answered⟩ := whole.resolve_right fun cut => cut.1
      obtain ⟨_, _, rfl, _⟩ := takes.of_opened opened inOrder.books.logged
      rw [answered, people.shown, told]

end Completing

end Resuming

/-- What one call for a partner writes. -/
inductive Trace (s : Store) (user : UserId) : Store → Prop
  | nothing : Trace s user s
  /-- A liker is shown to the person. -/
  | courts {a : Attempt} {s' : Store} (liker : s.IsLiker user a)
      (liked : s.lastHappening? a.id = some .firstLiked)
      (tells : s.Tells a.id [.shownToSecond] s') : Trace s user s'
  /-- A fresh candidate is shown to the person. -/
  | opens {a : Attempt} {s' : Store} (clock : Int) (own : a.first = user) (admits : s.Admits a)
      (tells : (s.withAttempt a clock).Tells a.id [.created, .shownToFirst] s')
      (story : s'.story a.id = [.created, .shownToFirst]) : Trace s user s'

theorem Leaves.trace (leaves : s.Leaves user [] s') (inOrder : s.InOrder link) :
    s.Trace user s' := by
  cases leaves with
  | nothing => exact .nothing
  | courted courted => exact .courts courted.liker courted.liked courted.tells
  | opened opened =>
    have story := opened.story inOrder.books.logged
    obtain ⟨_, own, admits, _, split, clock, partly⟩ := opened
    have tells := partly.tells
    rw [List.append_nil] at split
    rw [split] at story tells
    exact .opens clock own admits tells story

/-- Calls of that person for a partner, one after the other, each of which may be cut off. -/
def Retries (link : String → String) (ruler : Geo.Ruler) (user : UserId) : Store → Store → Prop :=
  Relation.ReflTransGen fun s s' => ∃ retries outcome,
    s.Ventures link True ((Call.next retries ⟨user⟩).program ruler) outcome s'

theorem Retries.leaves {person : Person} (retries : Retries link ruler user s s₁)
    (described : s.Describes user person) (somebody : user ≠ 0) (inOrder : s.InOrder link) :
    ∃ rest, s.Leaves user rest s₁ := by
  induction retries with
  | refl => exact ⟨[], .nothing⟩
  | tail _ call ih =>
    obtain ⟨rest, leaves⟩ := ih
    obtain ⟨retries, outcome, ventures⟩ := call
    obtain ⟨shown, pursues, _⟩ :=
      ventures.pursues (leaves.samePeople.describes described) somebody
    cases pursues with
    | rests => exact ⟨rest, leaves⟩
    | takesUp takes partly _ =>
      obtain ⟨rest', leaves', _⟩ := leaves.goes_on inOrder takes partly
      exact ⟨rest', leaves'⟩

theorem Retries.eq_of_nobody (retries : Retries link ruler 0 s s₁) : s₁ = s := by
  induction retries with
  | refl => rfl
  | tail _ call ih =>
    obtain ⟨_, _, ventures⟩ := call
    rw [ventures.of_nobody, ih]

/-- After any number of calls for a partner that were cut off, a completed one leaves no more
written than one call writes, and shows the second person of the attempt that was opened on the
way. -/
theorem cut_off_calls_leave_one_trace {s₀ : Store} {calls : List Call} {retries : Nat}
    {outcome : Option (Except MatchError Call.Result)} (fresh : s₀.IsFresh)
    (undergoes : s₀.Undergoes link ruler calls s) (complete : ∃ person, s.Describes user person)
    (series : Retries link ruler user s s₁)
    (last : s₁.Ventures link False ((Call.next retries ⟨user⟩).program ruler) outcome s') :
    s.Trace user s' ∧ ∀ a ∈ s₁.attempts, a ∉ s.attempts →
      ∃ partner, s.shown link a.second = .ok partner ∧
        outcome = some (.ok (.partner partner)) := by
  by_cases somebody : user = 0
  · subst somebody
    rw [last.of_nobody, series.eq_of_nobody]
    exact ⟨.nothing, fun a mem missing => absurd mem missing⟩
  have inOrder : s.InOrder link := undergoes.inOrder fresh
  obtain ⟨person, described⟩ := complete
  obtain ⟨rest, leaves⟩ := series.leaves described somebody inOrder
  obtain ⟨shown, pursues, rfl⟩ := last.pursues (leaves.samePeople.describes described) somebody
  refine ⟨(leaves.settles inOrder pursues).trace inOrder, ?_⟩
  intro a mem missing
  obtain ⟨partner, tells, rfl⟩ := leaves.shows inOrder pursues mem missing
  exact ⟨partner, tells, rfl⟩

section Interrupted

def seeker (user : UserId) : Program Call.Result := (Call.next 0 ⟨user⟩).program fun _ _ => some 0

def afterOneCall : Store :=
  ((village [1, 2, 3]).complete ("photos/" ++ ·) { photoBase := "photos" } (seeker 2)).2

def interrupt (s : Store) (user : UserId) (n : Nat) : Store :=
  (s.cutShort ("photos/" ++ ·) { photoBase := "photos" } n (seeker user)).2

/-- A call is cut off once it has opened an attempt, and the next one once it has written
`created`. -/
def cutOffTwice : Store := (afterOneCall.interrupt 1 14).interrupt 1 5

theorem undergoes_afterOneCall :
    (village [1, 2, 3]).Undergoes ("photos/" ++ ·) (fun _ _ => some 0) [.next 0 ⟨2⟩] afterOneCall :=
  .next .none (yields_complete (isNumbered_village [1, 2, 3]) _ _).1

theorem retries_cutOffTwice :
    Retries ("photos/" ++ ·) (fun _ _ => some 0) 1 afterOneCall cutOffTwice ∧
      cutOffTwice.IsNumbered := by
  have numbered : afterOneCall.IsNumbered := (yields_complete (isNumbered_village [1, 2, 3]) _ _).2
  obtain ⟨first, numbered⟩ := ventures_cutShort numbered { photoBase := "photos" } 14 (seeker 1)
  obtain ⟨second, numbered⟩ := ventures_cutShort numbered { photoBase := "photos" } 5 (seeker 1)
  exact ⟨.tail (.single ⟨0, _, first⟩) ⟨0, _, second⟩, numbered⟩

theorem cut_off_calls_leave_one_trace_cutOffTwice :
    cutOffTwice.story 2 = [.created] ∧ (∃ a ∈ cutOffTwice.attempts, a ∉ afterOneCall.attempts) ∧
      ∃ outcome s', cutOffTwice.Ventures ("photos/" ++ ·) False (seeker 1) outcome s' ∧
        s'.story 2 = [.created, .shownToFirst] ∧ afterOneCall.Trace 1 s' ∧
        ∀ a ∈ cutOffTwice.attempts, a ∉ afterOneCall.attempts →
          ∃ partner, afterOneCall.shown ("photos/" ++ ·) a.second = .ok partner ∧
            outcome = some (.ok (.partner partner)) := by
  obtain ⟨series, numbered⟩ := retries_cutOffTwice
  have last := ventures_complete ("photos/" ++ ·) False numbered { photoBase := "photos" }
    (seeker 1)
  refine ⟨by decide +kernel, by decide +kernel, _, _, last, by decide +kernel, ?_⟩
  exact cut_off_calls_leave_one_trace (isFresh_village [1, 2, 3]) undergoes_afterOneCall
    ⟨⟨_, _⟩, rfl, rfl, by decide +kernel⟩ series last

end Interrupted

end Store
end Matchmaking
