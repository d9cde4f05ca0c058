import Matchmaking.Proofs.Engine.Effect
import Matchmaking.Proofs.Traffic.Ledger
/-! Four records kept side by side: attempts, their log, chats and notifications. What the log tells
is what chats and notifications account for, in the same order. -/
namespace Matchmaking

namespace State

def stories : State → List (List Happening)
  | .pending =>
    [[.created, .shownToFirst], [.created, .shownToFirst, .firstLiked],
      [.created, .shownToFirst, .firstLiked, .shownToSecond]]
  | .matched =>
    [[.created, .shownToFirst, .firstLiked, .secondLiked, .paired],
      [.created, .shownToFirst, .firstLiked, .shownToSecond, .secondLiked, .paired]]
  | .mismatched =>
    [[.created, .shownToFirst, .firstDisliked, .failed],
      [.created, .shownToFirst, .firstLiked, .secondDisliked, .failed],
      [.created, .shownToFirst, .firstLiked, .shownToSecond, .secondDisliked, .failed]]

theorem missing_of_pending : ∀ story ∈ pending.stories,
    Stage.after story.getLast? = .awaitingFirst → Happening.missing story.getLast? = [] := by
  decide

theorem pending_shown : ∀ story ∈ pending.stories, story.getLast? = some .firstLiked →
    story ++ [.shownToSecond] ∈ pending.stories := by
  decide

theorem pending_liked : ∀ story ∈ pending.stories,
    (Stage.after story.getLast?).awaiting = some .first →
      story ++ [.firstLiked] ∈ pending.stories := by
  decide

theorem mismatched_disliked : ∀ side, ∀ story ∈ pending.stories,
    (Stage.after story.getLast?).awaiting = some side →
      story ++ [.swipe side .dislike, .failed] ∈ mismatched.stories := by
  intro side
  cases side <;> decide

theorem matched_liked : ∀ story ∈ pending.stories,
    (Stage.after story.getLast?).awaiting = some .second →
      story ++ [.secondLiked, .paired] ∈ matched.stories := by
  decide

theorem nodup_of_stories (state : State) : ∀ story ∈ state.stories, story.Nodup := by
  cases state <;> decide

theorem paired_mem (state : State) : ∀ story ∈ state.stories,
    .paired ∈ story ↔ state = .matched := by
  cases state <;> decide

theorem closing_last (state : State) {state' : State} {h : Happening}
    (closes : Happening.closing state' = some h) :
    ∀ story ∈ state.stories, story.getLast? = some h ↔ state = state' := by
  cases state' <;> cases closes <;> cases state <;> decide

theorem open_last (state : State) : ∀ story ∈ state.stories,
    (∀ h, story.getLast? = some h → h.isTerminal = false) ↔ state = .pending := by
  cases state <;> decide

end State

namespace Attempt

def move (id : AttemptId) (state : State) (a : Attempt) : Attempt :=
  if a.id = id then { a with state } else a

variable (id : AttemptId) (state : State) (a : Attempt)

@[simp] theorem id_move : (a.move id state).id = a.id := by
  unfold move
  split <;> rfl

@[simp] theorem first_move : (a.move id state).first = a.first := by
  unfold move
  split <;> rfl

@[simp] theorem second_move : (a.move id state).second = a.second := by
  unfold move
  split <;> rfl

@[simp] theorem people_move : (a.move id state).people = a.people := by
  rw [people, first_move, second_move, people]

@[simp] theorem person_move (side : Role) : (a.move id state).person side = a.person side := by
  cases side <;> simp [person]

end Attempt

namespace Store

variable {link : String → String} {s s₁ s' : Store} {a : Attempt} {hs : List Happening}

section Entries

def attemptsWith (s : Store) (h : Happening) : List Attempt :=
  (s.log.filter (·.happening == h)).filterMap fun e => s.attempt? e.attempt

theorem mem_attemptsWith (register : s.IsRegister) {h : Happening} :
    a ∈ s.attemptsWith h ↔ a ∈ s.attempts ∧ h ∈ s.story a.id := by
  simp only [attemptsWith, List.mem_filterMap, List.mem_filter, beq_iff_eq,
    attempt?_eq_some register.unique, story, List.mem_map, mem_eventsOf]
  constructor
  · rintro ⟨e, ⟨logged, told⟩, mem, about⟩
    exact ⟨mem, e, ⟨logged, about.symm⟩, told⟩
  · rintro ⟨mem, e, ⟨logged, about⟩, told⟩
    exact ⟨e, ⟨logged, told⟩, mem, about.symm⟩

theorem count_attemptsWith (register : s.IsRegister) (mem : a ∈ s.attempts) (h : Happening) :
    (s.attemptsWith h).count a = (s.story a.id).count h := by
  have here (e : Event) : (s.attempt? e.attempt == some a) = (e.attempt == a.id) := by
    rw [Bool.eq_iff_iff, beq_iff_eq, attempt?_eq_some register.unique, beq_iff_eq]
    exact ⟨fun found => found.2.symm, fun about => ⟨mem, about.symm⟩⟩
  rw [attemptsWith, List.count_filterMap, List.countP_filter, story, eventsOf,
    List.count_eq_countP, List.countP_map, List.countP_filter]
  apply List.countP_congr
  intro e _
  rw [here, Bool.and_comm, Function.comp_apply]

theorem attemptsWith_withAttempt (logged : ∀ e ∈ s.log, ∃ b ∈ s.attempts, b.id = e.attempt)
    (clock : Int) (h : Happening) :
    (s.withAttempt a clock).attemptsWith h = s.attemptsWith h := by
  apply List.filterMap_congr
  intro e mem
  obtain ⟨b, stored, about⟩ := logged e (List.mem_filter.1 mem).1
  have found : (s.attempts.find? (·.id == e.attempt)).isSome :=
    List.find?_isSome.2 ⟨b, stored, beq_iff_eq.2 about⟩
  rw [attempt?, attempts_withAttempt, List.find?_append, Option.or_of_isSome found, attempt?]

theorem Tells.attemptsWith (tells : s.Tells a.id hs s') (register : s.IsRegister)
    (mem : a ∈ s.attempts) (h : Happening) :
    s'.attemptsWith h = s.attemptsWith h ++ List.replicate (hs.count h) a := by
  obtain ⟨es, log, rfl, about⟩ := tells.log
  have same (id : AttemptId) : s'.attempt? id = s.attempt? id := by
    rw [attempt?, tells.attempts, attempt?]
  have new : (es.filter (·.happening == h)).filterMap (fun e => s.attempt? e.attempt) =
      List.replicate ((es.map Event.happening).count h) a := by
    calc
      _ = (es.filter (·.happening == h)).filterMap (some ∘ fun _ => a) := by
        apply List.filterMap_congr
        intro e told
        rw [about e (List.mem_filter.1 told).1, Function.comp_apply]
        exact (attempt?_eq_some register.unique).2 ⟨mem, rfl⟩
      _ = List.replicate (es.filter (·.happening == h)).length a := by
        rw [List.filterMap_eq_map, List.map_const']
      _ = _ := by
        rw [List.count_eq_countP, List.countP_map, List.countP_eq_length_filter]
        rfl
  rw [Store.attemptsWith, log, List.filter_append, List.filterMap_append]
  simp only [same]
  rw [new, Store.attemptsWith]

theorem Tells.exists_of_logged (tells : s.Tells a.id hs s') (mem : a ∈ s.attempts)
    (logged : ∀ e ∈ s.log, ∃ b ∈ s.attempts, b.id = e.attempt) (e : Event) (told : e ∈ s'.log) :
    ∃ b ∈ s.attempts, b.id = e.attempt := by
  obtain ⟨es, log, _, about⟩ := tells.log
  rw [log] at told
  rcases List.mem_append.1 told with old | new
  · exact logged e old
  · exact ⟨a, mem, (about e new).symm⟩

theorem attempts_setState (s : Store) (id : AttemptId) (state : State) :
    (s.setState id state).attempts = s.attempts.map (Attempt.move id state) := rfl

theorem attempt?_setState (id : AttemptId) (state : State) (other : AttemptId) :
    (s.setState id state).attempt? other = (s.attempt? other).map (Attempt.move id state) := by
  rw [attempt?, attempts_setState, List.find?_map, attempt?]
  congr 2
  funext b
  rw [Function.comp_apply, Attempt.id_move]

theorem attemptsWith_setState (id : AttemptId) (state : State) (h : Happening) :
    (s.setState id state).attemptsWith h = (s.attemptsWith h).map (Attempt.move id state) := by
  rw [attemptsWith, log_setState, attemptsWith, List.map_filterMap]
  apply List.filterMap_congr
  intro e _
  exact attempt?_setState id state e.attempt

theorem setState_self (register : s.IsRegister) (mem : a ∈ s.attempts) :
    s.setState a.id a.state = s := by
  have same : s.attempts.map (Attempt.move a.id a.state) = s.attempts.map id := by
    apply List.map_congr_left
    intro b stored
    unfold Attempt.move
    split
    · next here =>
      rw [register.unique b stored a mem here]
      rfl
    · rfl
  have attempts := s.attempts_setState a.id a.state
  rw [same, List.map_id] at attempts
  exact congrArg (fun attempts => { s with attempts }) attempts

end Entries

section Notices

/-- The receivers of the notifications of a kind and what these told, in the order in which they
were sent. -/
def notices (s : Store) (kind : NoticeKind) : List (UserId × Notice) :=
  (s.deliveries.filter fun d => d.kind == kind).map fun d => (d.receiver, d.notice)

theorem notices_recordDelivery (s : Store) (d : Delivery) (kind : NoticeKind) :
    (s.recordDelivery d).notices kind =
      s.notices kind ++ if d.kind = kind then [(d.receiver, d.notice)] else [] := by
  by_cases same : d.kind = kind <;> simp [notices, recordDelivery, same]

end Notices

/-- Chats and notifications are booked to what the log tells of attempts. -/
structure Books (link : String → String) (s : Store) : Prop where
  register : s.IsRegister
  logged : ∀ e ∈ s.log, ∃ a ∈ s.attempts, a.id = e.attempt
  known : ∀ a ∈ s.attempts, ∀ side, (s.profileOf? (a.person side)).isSome
  chats : s.chats.map Chat.people = (s.attemptsWith .paired).map Attempt.people
  liked : s.notices .liked = (s.attemptsWith .firstLiked).map fun a => s.noticeTo link a .second
  matched : s.notices .matched = (s.attemptsWith .paired).flatMap fun a =>
    [s.noticeTo link a .second, s.noticeTo link a .first]

/-- An attempt comes further: so much is told of it, then it moves to that state, and chats and
notifications come to what is told on the way. -/
structure Advances (link : String → String) (s : Store) (a : Attempt) (hs : List Happening)
    (state : State) (s₁ s' : Store) : Prop where
  tells : s.Tells a.id hs s₁
  rest : s' = { s₁.setState a.id state with chats := s'.chats, deliveries := s'.deliveries }
  chats : s'.chats.map Chat.people =
    s₁.chats.map Chat.people ++ List.replicate (hs.count .paired) a.people
  liked : s'.notices .liked =
    s₁.notices .liked ++ List.replicate (hs.count .firstLiked) (s.noticeTo link a .second)
  matched : s'.notices .matched =
    s₁.notices .matched ++ (List.replicate (hs.count .paired) a).flatMap fun a =>
      [s.noticeTo link a .second, s.noticeTo link a .first]

namespace Books

theorem opening (fresh : s.IsFresh) : s.Books link where
  register := by
    constructor <;> simp [fresh.attempts]
  logged := by simp [fresh.log]
  known := by simp [fresh.attempts]
  chats := by simp [fresh.chats, attemptsWith, fresh.log]
  liked := by simp [notices, fresh.deliveries, attemptsWith, fresh.log]
  matched := by simp [notices, fresh.deliveries, attemptsWith, fresh.log]

theorem withAttempt (books : s.Books link) (admits : s.Admits a) (distinct : a.first ≠ a.second)
    (somebody : a.first ≠ 0) (known : ∀ side, (s.profileOf? (a.person side)).isSome)
    (clock : Int) : (s.withAttempt a clock).Books link where
  register := books.register.withAttempt admits.fresh distinct somebody clock
  logged e mem := by
    obtain ⟨b, stored, about⟩ := books.logged e mem
    exact ⟨b, List.mem_append_left _ stored, about⟩
  known b mem := by
    rcases List.mem_append.1 mem with mem | mem
    · exact books.known b mem
    · rw [List.mem_singleton.1 mem]
      exact known
  chats := by
    rw [attemptsWith_withAttempt books.logged]
    exact books.chats
  liked := by
    rw [attemptsWith_withAttempt books.logged]
    exact books.liked
  matched := by
    rw [attemptsWith_withAttempt books.logged]
    exact books.matched

theorem advance (books : s.Books link) (mem : a ∈ s.attempts) {state : State}
    (advances : s.Advances link a hs state s₁ s') : s'.Books link := by
  obtain ⟨tells, rest, chats, liked, matched⟩ := advances
  have entries (h : Happening) : s'.attemptsWith h =
      (s.attemptsWith h ++ List.replicate (hs.count h) a).map (Attempt.move a.id state) := by
    rw [← tells.attemptsWith books.register mem, ← attemptsWith_setState, rest]
    rfl
  have notice (user : UserId) : s'.noticeOf link user = s.noticeOf link user := by
    rw [rest]
    exact tells.samePeople.noticeOf link user
  have told (b : Attempt) (side : Role) :
      s'.noticeTo link (b.move a.id state) side = s.noticeTo link b side := by
    cases side <;> simp [noticeTo, notice]
  have sent (kind : NoticeKind) : s₁.notices kind = s.notices kind := by
    rw [notices, tells.deliveries, notices]
  have attempts : s'.attempts = (s.setState a.id state).attempts := by
    rw [rest, setState, tells.attempts, setState]
  constructor
  case register => exact (books.register.setState a.id state).congr attempts
  case logged =>
    intro e logged
    rw [rest] at logged
    obtain ⟨b, stored, same⟩ := tells.exists_of_logged mem books.logged e logged
    rw [attempts, attempts_setState]
    exact ⟨_, List.mem_map_of_mem stored, (b.id_move a.id state).trans same⟩
  case known =>
    intro b moved side
    rw [attempts, attempts_setState] at moved
    obtain ⟨b, stored, rfl⟩ := List.mem_map.1 moved
    have profiles : s'.profiles = s.profiles := by
      rw [rest]
      exact tells.samePeople.profiles
    rw [Attempt.person_move, profileOf?, profiles]
    exact books.known b stored side
  case chats =>
    rw [chats, tells.chats, books.chats, entries, List.map_map]
    simp only [Function.comp_def, Attempt.people_move, List.map_append, List.map_replicate]
  case liked =>
    rw [liked, sent, books.liked, entries, List.map_map]
    simp only [Function.comp_def, told, List.map_append, List.map_replicate]
  case matched =>
    rw [matched, sent, books.matched, entries, List.flatMap_map]
    simp only [told, List.flatMap_append]

end Books

end Store
end Matchmaking
