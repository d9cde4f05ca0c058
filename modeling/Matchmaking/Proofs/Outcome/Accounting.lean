import Matchmaking.Proofs.Outcome.Books
import Matchmaking.Proofs.Traffic.Orderly
import Matchmaking.Proofs.Traffic.Schedule
/-! Outcome accounting: whatever calls are made, one after the other and each to its end, chats and
notifications are exactly those that the stories of the attempts call for. -/
namespace Matchmaking

theorem State.isNarrative_of_stories (state : State) :
    ∀ story ∈ state.stories, Happening.IsNarrative story := by
  unfold Happening.IsNarrative
  cases state <;> decide

namespace Store

variable {link : String → String} {s s₁ s' : Store} {a : Attempt} {hs : List Happening}

def Fits (s : Store) (a : Attempt) : Prop := s.story a.id ∈ a.state.stories

/-- The books are in order, and so is the story of each attempt. -/
structure InOrder (link : String → String) (s : Store) : Prop where
  books : s.Books link
  fits : ∀ a ∈ s.attempts, s.Fits a

namespace Books

/-- The books, and the stories of all attempts but one, are in order; then that one comes further,
to a story that stands for its new state. -/
theorem inOrder_of_advance (books : s.Books link) (mem : a ∈ s.attempts)
    (others : ∀ b ∈ s.attempts, b.id ≠ a.id → s.Fits b) {state : State}
    (grown : s.story a.id ++ hs ∈ state.stories) (advances : s.Advances link a hs state s₁ s') :
    s'.InOrder link where
  books := books.advance mem advances
  fits b moved := by
    obtain ⟨tells, rest, _⟩ := advances
    have attempts : s'.attempts = (s₁.setState a.id state).attempts := by rw [rest]
    have story (id : AttemptId) : s'.story id = s₁.story id := by
      rw [rest]
      rfl
    rw [attempts] at moved
    obtain ⟨b, stored, rfl⟩ := mem_attempts_setState.1 moved
    rw [tells.attempts] at stored
    by_cases same : b.id = a.id
    · simp only [Fits, same, if_true]
      rw [story, tells.story]
      exact grown
    · simp only [Fits, same, if_false]
      rw [story, tells.story_of_ne same]
      exact others b stored same

theorem setState_pending (books : s.Books link) (mem : a ∈ s.attempts) (pending : a.isPending)
    (tells : s.Tells a.id hs s₁) : s₁.setState a.id .pending = s₁ := by
  rw [← beq_iff_eq.1 pending]
  refine setState_self (books.register.congr tells.attempts) ?_
  rw [tells.attempts]
  exact mem

theorem inOrder_of_showing (books : s.Books link) (mem : a ∈ s.attempts) (pending : a.isPending)
    (others : ∀ b ∈ s.attempts, b.id ≠ a.id → s.Fits b) (tells : s.Tells a.id hs s')
    (grown : s.story a.id ++ hs ∈ State.pending.stories) (unpaired : hs.count .paired = 0)
    (unliked : hs.count .firstLiked = 0) : s'.InOrder link := by
  refine books.inOrder_of_advance mem others grown ⟨tells, ?_, ?_, ?_, ?_⟩
  · rw [books.setState_pending mem pending tells]
  · rw [unpaired, List.replicate_zero, List.append_nil]
  · rw [unliked, List.replicate_zero, List.append_nil]
  · rw [unpaired, List.replicate_zero, List.flatMap_nil, List.append_nil]

end Books

namespace InOrder

theorem opening (fresh : s.IsFresh) : s.InOrder link where
  books := .opening fresh
  fits := by simp [fresh.attempts]

theorem others (inOrder : s.InOrder link) (id : AttemptId) (b : Attempt) (mem : b ∈ s.attempts)
    (_ : b.id ≠ id) : s.Fits b := inOrder.fits b mem

theorem story_pending (inOrder : s.InOrder link) (mem : a ∈ s.attempts) (pending : a.isPending) :
    s.story a.id ∈ State.pending.stories := by
  have fits := inOrder.fits a mem
  rwa [Fits, beq_iff_eq.1 pending] at fits

section Effects

variable {principal : Principal} {candidate : UserId} {side : Role}

theorem resumes (inOrder : s.InOrder link) (mem : a ∈ s.attempts) (pending : a.isPending)
    (begun : Stage.after (s.lastHappening? a.id) = .awaitingFirst)
    (tells : s.Tells a.id (Happening.missing (s.lastHappening? a.id)) s') : s'.InOrder link := by
  have story := inOrder.story_pending mem pending
  rw [lastHappening?_eq] at begun tells
  rw [State.missing_of_pending _ story begun] at tells
  refine inOrder.books.inOrder_of_showing mem pending (inOrder.others _) tells ?_ rfl rfl
  rwa [List.append_nil]

theorem courts (inOrder : s.InOrder link) {user : UserId} (liker : s.IsLiker user a)
    (liked : s.lastHappening? a.id = some .firstLiked)
    (tells : s.Tells a.id [.shownToSecond] s') : s'.InOrder link := by
  have story := inOrder.story_pending liker.mem liker.pending
  rw [lastHappening?_eq] at liked
  exact inOrder.books.inOrder_of_showing liker.mem liker.pending (inOrder.others _) tells
    (State.pending_shown _ story liked) rfl rfl

theorem opens (inOrder : s.InOrder link) (admits : s.Admits a) (somebody : a.first ≠ 0)
    (known : (s.profileOf? a.first).isSome) (other : s.IsOther a.first a.second) {clock : Int}
    (tells : (s.withAttempt a clock).Tells a.id [.created, .shownToFirst] s') :
    s'.InOrder link := by
  have both (side : Role) : (s.profileOf? (a.person side)).isSome := by
    cases side
    · exact known
    · exact other.2
  have books := inOrder.books.withAttempt admits (Ne.symm other.1) somebody both clock
  have silent : (s.withAttempt a clock).story a.id = [] := by
    rw [story, eventsOf_congr (log_withAttempt a clock),
      eventsOf_of_fresh inOrder.books.logged admits.fresh, List.map_nil]
  refine books.inOrder_of_showing (by simp) admits.pending ?_ tells ?_ rfl rfl
  · intro b mem ne
    rcases List.mem_append.1 mem with mem | mem
    · exact inOrder.fits b mem
    · exact absurd (congrArg Attempt.id (List.mem_singleton.1 mem)) ne
  · rw [silent]
    decide

theorem turn (waits : s.Awaits a side principal.id candidate) :
    (Stage.after (s.story a.id).getLast?).awaiting = some side := by
  rw [← lastHappening?_eq]
  exact waits.turn

theorem likes (inOrder : s.InOrder link) (waits : s.Awaits a .first principal.id candidate)
    (tells : s.Tells a.id [.firstLiked] s₁) (delivered : Bool) :
    (s₁.recordDelivery ⟨.liked, a.second, s.noticeOf link a.first, delivered⟩).InOrder link := by
  have story := inOrder.story_pending waits.mem waits.pending
  refine inOrder.books.inOrder_of_advance waits.mem (inOrder.others _)
    (State.pending_liked _ story (turn waits)) ⟨tells, ?_, ?_, ?_, ?_⟩
  · rw [inOrder.books.setState_pending waits.mem waits.pending tells]
    rfl
  · exact (List.append_nil _).symm
  · exact notices_recordDelivery s₁ _ .liked
  · exact notices_recordDelivery s₁ _ .matched

theorem dislikes (inOrder : s.InOrder link) (waits : s.Awaits a side principal.id candidate)
    (tells : s.Tells a.id [.swipe side .dislike, .failed] s₁) :
    (s₁.setState a.id .mismatched).InOrder link := by
  have story := inOrder.story_pending waits.mem waits.pending
  have unpaired : [Happening.swipe side .dislike, .failed].count .paired = 0 := by
    cases side <;> decide
  have unliked : [Happening.swipe side .dislike, .failed].count .firstLiked = 0 := by
    cases side <;> decide
  refine inOrder.books.inOrder_of_advance waits.mem (inOrder.others _)
    (State.mismatched_disliked side _ story (turn waits)) ⟨tells, rfl, ?_, ?_, ?_⟩
  · rw [unpaired]
    exact (List.append_nil _).symm
  · rw [unliked]
    exact (List.append_nil _).symm
  · rw [unpaired]
    exact (List.append_nil _).symm

theorem pairs (inOrder : s.InOrder link) (waits : s.Awaits a .second principal.id candidate)
    (tells : s.Tells a.id [.secondLiked, .paired] s₁) (number : Nat) (delivered delivered' : Bool) :
    ((((s₁.setState a.id .matched).withChat ⟨number, a.first, a.second⟩).recordDelivery
      ⟨.matched, a.second, s.noticeOf link a.first, delivered⟩).recordDelivery
      ⟨.matched, a.first, s.noticeOf link a.second, delivered'⟩).InOrder link := by
  have story := inOrder.story_pending waits.mem waits.pending
  refine inOrder.books.inOrder_of_advance waits.mem (inOrder.others _)
    (State.matched_liked _ story (turn waits)) ⟨tells, rfl, ?_, ?_, ?_⟩
  · exact List.map_append
  · rw [notices_recordDelivery, notices_recordDelivery, List.append_assoc]
    rfl
  · rw [notices_recordDelivery, notices_recordDelivery, List.append_assoc]
    rfl

end Effects

/-- Every effect of a completed call leaves the books in order. -/
theorem step (inOrder : s.InOrder link) {c : Call} {result : Except MatchError Call.Result}
    (effect : s.Effect link c result s') : s'.InOrder link := by
  cases effect with
  | looks => exact inOrder
  | resumes mem pending first begun tells => exact inOrder.resumes mem pending begun tells
  | courts liker liked tells => exact inOrder.courts liker liked tells
  | opens clock first somebody admits known other tells =>
    rw [← first] at somebody
    exact inOrder.opens admits somebody known other tells
  | likes delivered waits tells => exact inOrder.likes waits tells delivered
  | dislikes waits tells => exact inOrder.dislikes waits tells
  | pairs number delivered delivered' waits tells =>
    exact inOrder.pairs waits tells number delivered delivered'

end InOrder

/-- What chats and notifications have to do with attempts and their log. -/
structure Accounts (link : String → String) (s : Store) : Prop where
  /-- A chat for each match, in the order in which these were made. -/
  chats : s.chats.map Chat.people = (s.attemptsWith .paired).map Attempt.people
  /-- One notification to the second person for each like of the first one. -/
  liked : s.notices .liked = (s.attemptsWith .firstLiked).map fun a =>
    (a.second, s.noticeOf link a.first)
  /-- Two notifications for each match, to the second and then to the first person. -/
  matched : s.notices .matched = (s.attemptsWith .paired).flatMap fun a =>
    [(a.second, s.noticeOf link a.first), (a.first, s.noticeOf link a.second)]
  /-- No attempt is entered twice. -/
  nodup : ∀ h, (s.attemptsWith h).Nodup
  likes : ∀ a, a ∈ s.attemptsWith .firstLiked ↔ a ∈ s.attempts ∧ .firstLiked ∈ s.story a.id
  pairs : ∀ a, a ∈ s.attemptsWith .paired ↔ a ∈ s.attempts ∧ a.state = .matched
  /-- A notice gives the name, and the link of the first photo if there is one. -/
  noticed : ∀ a ∈ s.attempts, ∀ side, ∃ p, s.profileOf? (a.person side) = some p ∧
    s.noticeOf link (a.person side) =
      ⟨p.name, (s.photosOf (a.person side)).head?.elim "" link⟩
  narrative : ∀ a ∈ s.attempts, Happening.IsNarrative (s.story a.id)
  paired : ∀ a ∈ s.attempts, s.lastHappening? a.id = some .paired ↔ a.state = .matched
  failed : ∀ a ∈ s.attempts, s.lastHappening? a.id = some .failed ↔ a.state = .mismatched
  pending : ∀ a ∈ s.attempts,
    (∀ h, s.lastHappening? a.id = some h → h.isTerminal = false) ↔ a.state = .pending

theorem InOrder.accounts (inOrder : s.InOrder link) : s.Accounts link where
  chats := inOrder.books.chats
  liked := inOrder.books.liked
  matched := inOrder.books.matched
  nodup h := by
    apply List.nodup_iff_count_le_one.2
    intro a
    by_cases mem : a ∈ s.attempts
    · rw [count_attemptsWith inOrder.books.register mem]
      exact List.nodup_iff_count_le_one.1 (State.nodup_of_stories _ _ (inOrder.fits a mem)) h
    · rw [List.count_eq_zero_of_not_mem]
      · exact Nat.zero_le 1
      · intro entered
        exact mem ((mem_attemptsWith inOrder.books.register).1 entered).1
  likes a := mem_attemptsWith inOrder.books.register
  pairs a := by
    rw [mem_attemptsWith inOrder.books.register]
    apply and_congr_right
    intro mem
    exact State.paired_mem _ _ (inOrder.fits a mem)
  noticed a mem side := by
    obtain ⟨p, found⟩ := Option.isSome_iff_exists.1 (inOrder.books.known a mem side)
    refine ⟨p, found, ?_⟩
    rw [noticeOf, found]
    rfl
  narrative a mem := State.isNarrative_of_stories _ _ (inOrder.fits a mem)
  paired a mem := by
    rw [lastHappening?_eq]
    exact State.closing_last _ rfl _ (inOrder.fits a mem)
  failed a mem := by
    rw [lastHappening?_eq]
    exact State.closing_last _ rfl _ (inOrder.fits a mem)
  pending a mem := by
    rw [lastHappening?_eq]
    exact State.open_last _ _ (inOrder.fits a mem)

/-- After any calls, made one after the other and each to its end, chats and notifications account
for the matches and likes that the log tells of, and a dislike leads to neither. -/
theorem outcome_accounting {ruler : Geo.Ruler} {calls : List Call} (fresh : s.IsFresh)
    (undergoes : s.Undergoes link ruler calls s') :
    s'.Accounts link ∧ ∀ principal candidate result s'',
      s'.Yields link ((Call.swipe principal candidate .dislike).program ruler) result s'' →
        s''.chats = s'.chats ∧ s''.deliveries = s'.deliveries ∧
          s''.attempts.map Attempt.id = s'.attempts.map Attempt.id := by
  constructor
  · have inOrder := undergoes.keeps (P := InOrder link) (.opening fresh) fun inOrder yields =>
      inOrder.step yields.effect
    exact inOrder.accounts
  · intro principal candidate result s'' yields
    cases yields.effect with
    | looks => exact ⟨rfl, rfl, rfl⟩
    | dislikes waits tells =>
      refine ⟨tells.chats, tells.deliveries, ?_⟩
      rw [attempts_setState, tells.attempts, List.map_map]
      simp only [Function.comp_def, Attempt.id_move]

def couple : Store where
  profiles := (village [1, 2]).profiles.map fun p =>
    { p with name := if p.userId = 1 then "Ada" else "Ben" }
  preferences := (village [1, 2]).preferences
  photos := [(1, ["ada", "coat"])]

/-- A match after a like that is given twice, and another try of the same two that comes to
nothing. -/
def matchThenMismatch : Store :=
  couple.completeAll ("photos/" ++ ·) { photoBase := "photos" } (fun _ _ => some 0)
    [.next 0 ⟨1⟩, .swipe ⟨1⟩ 2 .like, .swipe ⟨1⟩ 2 .like, .next 0 ⟨2⟩, .swipe ⟨2⟩ 1 .like,
      .next 0 ⟨2⟩, .swipe ⟨2⟩ 1 .dislike]

theorem outcome_accounting_matchThenMismatch :
    matchThenMismatch.attempts.map Attempt.state = [.matched, .mismatched] ∧
      matchThenMismatch.notices .liked = [(2, ⟨"Ada", "photos/ada"⟩)] ∧
      matchThenMismatch.notices .matched = [(2, ⟨"Ada", "photos/ada"⟩), (1, ⟨"Ben", ""⟩)] ∧
      matchThenMismatch.Accounts ("photos/" ++ ·) := by
  have fresh : couple.IsFresh := ⟨rfl, rfl, rfl, rfl⟩
  have numbered : couple.IsNumbered :=
    ⟨List.nodup_nil, fun _ mem => (nomatch mem), fun _ mem => (nomatch mem)⟩
  exact ⟨by decide +kernel, by decide +kernel, by decide +kernel,
    (outcome_accounting fresh (Undergoes.none.completeAll numbered _ _)).1⟩

end Store
end Matchmaking
