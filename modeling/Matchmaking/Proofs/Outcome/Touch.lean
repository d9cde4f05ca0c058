import Matchmaking.Proofs.Engine.Effect
import Matchmaking.Proofs.Engine.Growth
import Matchmaking.Proofs.Outcome.Books
/-! What a completed call leaves alone. It touches one attempt at most, which its caller has opened
or is waited for in; all others stay as they are, and so does the last that is told of them. -/
namespace Matchmaking
namespace Store

variable {link : String → String} {s s₁ s' : Store} {a b : Attempt} {id : AttemptId}
  {side : Role} {user candidate : UserId} {verdict : Verdict}

/-- A call of that person has touched the attempt with that id, and no other one. -/
structure Touches (s : Store) (user : UserId) (id : AttemptId) (s' : Store) : Prop where
  attempts : ∀ b, b.id ≠ id → (b ∈ s'.attempts ↔ b ∈ s.attempts)
  told : ∀ other, other ≠ id → s'.lastHappening? other = s.lastHappening? other
  /-- An attempt that was there waited for the person. -/
  turn : ∀ b ∈ s.attempts, b.id = id →
    ∃ side, b.person side = user ∧ (s.stage id).awaiting = some side
  /-- An attempt that now waits for its first person waits for the one who has called. -/
  begun : ∀ b ∈ s'.attempts, b.id = id → s'.stage id = .awaitingFirst → b.first = user

theorem Touches.stage (touches : s.Touches user id s') {other : AttemptId} (ne : other ≠ id) :
    s'.stage other = s.stage other := by
  rw [Store.stage, touches.told other ne, Store.stage]

section Telling

theorem mem_setState_of_ne {state : State} (ne : b.id ≠ id) :
    b ∈ (s.setState id state).attempts ↔ b ∈ s.attempts := by
  rw [mem_attempts_setState]
  constructor
  · rintro ⟨d, mem, rfl⟩
    by_cases here : d.id = id
    · rw [if_pos here] at ne
      exact absurd here ne
    · rwa [if_neg here]
  · intro mem
    exact ⟨b, mem, by rw [if_neg ne]⟩

theorem id_eq_of_setState {state : State} (mem : b ∈ (s.setState id state).attempts) :
    ∃ d ∈ s.attempts, d.id = b.id ∧ d.first = b.first := by
  rw [attempts_setState] at mem
  obtain ⟨d, stored, rfl⟩ := List.mem_map.1 mem
  exact ⟨d, stored, (d.id_move id state).symm, (d.first_move id state).symm⟩

theorem Tells.touches {hs : List Happening} (tells : s.Tells a.id hs s') (register : s.IsRegister)
    (mem : a ∈ s.attempts) (side : Role) (own : a.person side = user)
    (turn : (s.stage a.id).awaiting = some side)
    (begun : s'.stage a.id = .awaitingFirst → side = .first) : s.Touches user a.id s' where
  attempts b _ := by rw [tells.attempts]
  told other ne := tells.lastHappening?_of_ne ne
  turn b stored same := by
    rw [register.unique b stored a mem same]
    exact ⟨side, own, turn⟩
  begun b stored same begins := by
    rw [tells.attempts] at stored
    rw [register.unique b stored a mem same, ← own, begun begins]
    rfl

theorem Tells.touches_of_admits {hs : List Happening} {clock : Int}
    (tells : (s.withAttempt a clock).Tells a.id hs s') (admits : s.Admits a)
    (own : a.first = user) : s.Touches user a.id s' where
  attempts b ne := by
    rw [tells.attempts, attempts_withAttempt, List.mem_append, List.mem_singleton]
    have other : b ≠ a := fun same => ne (congrArg Attempt.id same)
    simp [other]
  told other ne :=
    (tells.lastHappening?_of_ne ne).trans (lastHappening?_congr (log_withAttempt a clock) other)
  turn b stored same := absurd same (admits.fresh b stored)
  begun b mem same _ := by
    rw [tells.attempts] at mem
    rcases List.mem_append.1 mem with old | new
    · exact absurd same (admits.fresh b old)
    · rw [List.mem_singleton.1 new]
      exact own

theorem Touches.setState {state : State} (touches : s.Touches user id s₁) :
    s.Touches user id (s₁.setState id state) where
  attempts b ne := (mem_setState_of_ne ne).trans (touches.attempts b ne)
  told other ne :=
    (lastHappening?_congr (log_setState id state) other).trans (touches.told other ne)
  turn := touches.turn
  begun b mem same begins := by
    obtain ⟨d, stored, here, first⟩ := id_eq_of_setState mem
    rw [← first]
    exact touches.begun d stored (here.trans same) begins

theorem Touches.congr {s₂ : Store} (touches : s.Touches user id s₁)
    (attempts : s₂.attempts = s₁.attempts) (log : s₂.log = s₁.log) : s.Touches user id s₂ where
  attempts b ne := by
    rw [attempts]
    exact touches.attempts b ne
  told other ne := (lastHappening?_congr log other).trans (touches.told other ne)
  turn := touches.turn
  begun b mem same begins := by
    rw [attempts] at mem
    rw [Store.stage, lastHappening?_congr log] at begins
    exact touches.begun b mem same begins

end Telling

section Answers

theorem Settles.stage (settles : s.Settles link a side verdict s') :
    s'.stage a.id = .resolved ∨ side = .first ∧ s'.stage a.id = .awaitingSecond := by
  cases settles with
  | likes delivered tells =>
    right
    refine ⟨rfl, ?_⟩
    rw [Store.stage, lastHappening?_congr (log_recordDelivery _), tells.lastHappening?_self]
    rfl
  | dislikes tells =>
    left
    rw [Store.stage, lastHappening?_congr (log_setState _ _), tells.lastHappening?_append]
    rfl
  | @pairs s' number delivered delivered' tells =>
    left
    have log : ((((s'.setState a.id .matched).withChat ⟨number, a.first, a.second⟩).recordDelivery
        ⟨.matched, a.second, s.noticeOf link a.first, delivered⟩).recordDelivery
        ⟨.matched, a.first, s.noticeOf link a.second, delivered'⟩).log = s'.log := rfl
    rw [Store.stage, lastHappening?_congr log, tells.lastHappening?_append]
    rfl

/-- An answer touches the attempt that waits for it. -/
theorem Settles.touches (settles : s.Settles link a side verdict s')
    (waits : s.Awaits a side user candidate) (register : s.IsRegister) :
    s.Touches user a.id s' := by
  have own := Role.person_of waits.role
  have told {hs : List Happening} {s₁ : Store} (tells : s.Tells a.id hs s₁)
      (done : s₁.stage a.id ≠ .awaitingFirst) : s.Touches user a.id s₁ :=
    tells.touches register waits.mem side own waits.turn fun begins => absurd begins done
  cases settles with
  | likes delivered tells =>
    refine (told tells ?_).congr (attempts_recordDelivery _) (log_recordDelivery _)
    rw [Store.stage, tells.lastHappening?_self]
    intro begins
    cases begins
  | dislikes tells =>
    refine (told tells ?_).setState
    rw [Store.stage, tells.lastHappening?_append]
    intro begins
    cases begins
  | pairs number delivered delivered' tells =>
    refine (told tells ?_).setState.congr rfl rfl
    rw [Store.stage, tells.lastHappening?_append]
    intro begins
    cases begins

theorem Settles.passes (settles : s.Settles link a side verdict s')
    (waits : s.Awaits a side user candidate) (register : s.IsRegister) (mem : b ∈ s'.attempts)
    (same : b.id = a.id) {side' : Role} (own : b.person side' = user) :
    (s'.stage a.id).awaiting ≠ some side' := by
  intro turn
  rcases settles.stage with resolved | ⟨first, liked⟩
  · rw [resolved] at turn
    cases turn
  · rw [liked] at turn
    cases turn
    cases settles with
    | likes delivered tells =>
      have stored : b ∈ s.attempts := tells.attempts ▸ mem
      rw [register.unique b stored a waits.mem same, ← Role.person_of waits.role] at own
      exact register.distinct a waits.mem own.symm
    | dislikes tells =>
      rw [Store.stage, lastHappening?_congr (log_setState _ _),
        tells.lastHappening?_append] at liked
      cases liked
    | pairs => cases first

theorem Settles.ids (settles : s.Settles link a side verdict s') :
    s'.attempts.map Attempt.id = s.attempts.map Attempt.id := by
  have moved {s₁ : Store} {hs : List Happening} (tells : s.Tells a.id hs s₁) (state : State) :
      (s₁.setState a.id state).attempts.map Attempt.id = s.attempts.map Attempt.id := by
    rw [attempts_setState, tells.attempts, List.map_map]
    simp only [Function.comp_def, Attempt.id_move]
  cases settles with
  | likes delivered tells => exact congrArg (List.map Attempt.id) tells.attempts
  | dislikes tells => exact moved tells .mismatched
  | pairs number delivered delivered' tells => exact moved tells .matched

end Answers

section Effects

variable {c : Call} {result : Except MatchError Call.Result}

theorem Effect.isRegister (effect : s.Effect link c result s') (register : s.IsRegister) :
    s'.IsRegister := by
  cases effect with
  | looks => exact register
  | resumes _ _ _ _ tells => exact register.congr tells.attempts
  | courts _ _ tells => exact register.congr tells.attempts
  | opens clock first somebody admits _ other tells =>
    rw [← first] at somebody
    exact (register.withAttempt admits.fresh (Ne.symm other.1) somebody clock).congr tells.attempts
  | likes delivered _ tells => exact register.congr tells.attempts
  | dislikes _ tells => exact (register.congr tells.attempts).setState _ _
  | pairs number delivered delivered' _ tells =>
    exact ((register.congr tells.attempts).setState _ _).congr rfl

/-- A completed call touches one attempt at most. -/
theorem Effect.touches (effect : s.Effect link c result s') (register : s.IsRegister) :
    s' = s ∨ ∃ id, s.Touches c.user id s' := by
  cases effect with
  | looks => exact Or.inl rfl
  | @resumes _ _ a _ mem pending first begun tells =>
    have turn := s.awaiting_of_awaitingFirst a.id begun
    exact Or.inr ⟨a.id, tells.touches register mem .first first turn fun _ => rfl⟩
  | @courts _ _ a _ liker liked tells =>
    have turn := awaiting_of_firstLiked liked
    refine Or.inr ⟨a.id, tells.touches register liker.mem .second liker.second turn ?_⟩
    rw [Store.stage, tells.lastHappening?_self]
    intro begins
    cases begins
  | @opens _ _ a _ clock first somebody admits known other tells =>
    exact Or.inr ⟨a.id, tells.touches_of_admits admits first⟩
  | @likes _ _ a s₁ delivered waits tells =>
    have settles : s.Settles link a .first .like _ := .likes delivered tells
    exact Or.inr ⟨a.id, settles.touches waits register⟩
  | @dislikes _ _ a side _ waits tells =>
    have settles : s.Settles link a side .dislike _ := .dislikes tells
    exact Or.inr ⟨a.id, settles.touches waits register⟩
  | @pairs _ _ a _ number delivered delivered' waits tells =>
    have settles : s.Settles link a .second .like _ := .pairs number delivered delivered' tells
    exact Or.inr ⟨a.id, settles.touches waits register⟩

end Effects

end Store
end Matchmaking
