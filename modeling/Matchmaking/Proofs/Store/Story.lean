import Matchmaking.Store.Basic
import Matchmaking.Attempt.Narrative
/-! The story that a log tells of an attempt, and how the writes of a store change what is read
from it: an event lengthens one story, everything else leaves all stories alone. -/
namespace Matchmaking
namespace Store

variable (s : Store)

/-- What has happened to an attempt, in order. -/
def story (id : AttemptId) : List Happening := (s.eventsOf id).map Event.happening

def lastHappening? (id : AttemptId) : Option Happening := (s.lastEvent? id).map Event.happening

def stage (id : AttemptId) : Stage := Stage.after (s.lastHappening? id)

theorem lastHappening?_eq (id : AttemptId) : s.lastHappening? id = (s.story id).getLast? := by
  simp [lastHappening?, lastEvent?, story]

theorem mem_eventsOf {id : AttemptId} {e : Event} :
    e ∈ s.eventsOf id ↔ e ∈ s.log ∧ e.attempt = id := by
  simp [eventsOf]

theorem attempt?_eq_some {s : Store}
    (unique : ∀ a ∈ s.attempts, ∀ b ∈ s.attempts, a.id = b.id → a = b) {id : AttemptId}
    {a : Attempt} : s.attempt? id = some a ↔ a ∈ s.attempts ∧ a.id = id := by
  constructor
  · intro found
    exact ⟨List.mem_of_find?_eq_some found, by simpa using List.find?_some found⟩
  · rintro ⟨mem, rfl⟩
    cases first : s.attempt? a.id with
    | none => simpa using List.find?_eq_none.1 first a mem
    | some b =>
      have same : b.id = a.id := by simpa using List.find?_some first
      rw [unique b (List.mem_of_find?_eq_some first) a mem same]

theorem eventsOf_of_fresh {s : Store} {id : AttemptId}
    (known : ∀ e ∈ s.log, ∃ b ∈ s.attempts, b.id = e.attempt)
    (fresh : ∀ b ∈ s.attempts, b.id ≠ id) : s.eventsOf id = [] := by
  apply List.eq_nil_iff_forall_not_mem.2
  intro e mem
  obtain ⟨logged, about⟩ := s.mem_eventsOf.1 mem
  obtain ⟨b, stored, same⟩ := known e logged
  exact fresh b stored (same.trans about)

theorem awaiting_of_awaitingFirst (id : AttemptId)
    (begun : Stage.after (s.lastHappening? id) = .awaitingFirst) :
    (s.stage id).awaiting = some .first := by
  rw [stage, begun]
  rfl

theorem awaiting_of_firstLiked {s : Store} {id : AttemptId}
    (liked : s.lastHappening? id = some .firstLiked) : (s.stage id).awaiting = some .second := by
  rw [stage, liked]
  rfl

theorem awaiting_of_awaitsReply {s : Store} {a : Attempt} (waits : s.awaitsReply a = true) :
    (s.stage a.id).awaiting = some .second := by
  unfold awaitsReply at waits
  unfold stage lastHappening?
  split at waits
  · next last => rw [last]; rfl
  · next last => rw [last]; rfl
  · simp at waits

theorem awaitsReply_iff {s : Store} {a : Attempt} :
    s.awaitsReply a ↔
      s.lastHappening? a.id = some .firstLiked ∨ s.lastHappening? a.id = some .shownToSecond := by
  unfold awaitsReply lastHappening?
  split <;> simp_all

theorem awaitsReply_iff_awaiting {s : Store} {a : Attempt} :
    s.awaitsReply a ↔ (s.stage a.id).awaiting = some .second := by
  rw [awaitsReply_iff, stage]
  rcases s.lastHappening? a.id with _ | h
  · simp [Stage.after, Stage.awaiting]
  · cases h <;> simp [Stage.after, Stage.awaiting]

theorem awaiting_eq_first {s : Store} {id : AttemptId} :
    (s.stage id).awaiting = some .first ↔ s.stage id = .awaitingFirst := by
  cases s.stage id <;> simp [Stage.awaiting]

def withAttempt (a : Attempt) (clock : Int) : Store :=
  { s with attempts := s.attempts ++ [a], clock }

def withEvent (e : Event) (clock : Int) : Store := { s with log := s.log ++ [e], clock }

def withChat (c : Chat) : Store := { s with chats := s.chats ++ [c] }

/-- The store has records of people, and nothing else. -/
structure IsFresh (s : Store) : Prop where
  attempts : s.attempts = []
  log : s.log = []
  chats : s.chats = []
  deliveries : s.deliveries = []

variable {s}

section Attempts

@[simp] theorem attempts_withAttempt (a : Attempt) (clock : Int) :
    (s.withAttempt a clock).attempts = s.attempts ++ [a] := rfl

@[simp] theorem attempts_withEvent (e : Event) (clock : Int) :
    (s.withEvent e clock).attempts = s.attempts := rfl

@[simp] theorem attempts_withChat (c : Chat) : (s.withChat c).attempts = s.attempts := rfl

@[simp] theorem attempts_recordDelivery (d : Delivery) :
    (s.recordDelivery d).attempts = s.attempts := rfl

theorem mem_attempts_setState {id : AttemptId} {state : State} {b : Attempt} :
    b ∈ (s.setState id state).attempts ↔
      ∃ a ∈ s.attempts, b = if a.id = id then { a with state } else a := by
  simp [setState, eq_comm]

end Attempts

section Stories

@[simp] theorem log_withAttempt (a : Attempt) (clock : Int) :
    (s.withAttempt a clock).log = s.log := rfl

@[simp] theorem log_withEvent (e : Event) (clock : Int) :
    (s.withEvent e clock).log = s.log ++ [e] := rfl

@[simp] theorem log_withChat (c : Chat) : (s.withChat c).log = s.log := rfl

@[simp] theorem log_recordDelivery (d : Delivery) : (s.recordDelivery d).log = s.log := rfl

@[simp] theorem log_setState (id : AttemptId) (state : State) : (s.setState id state).log = s.log :=
  rfl

theorem eventsOf_congr {s' : Store} (same : s'.log = s.log) (id : AttemptId) :
    s'.eventsOf id = s.eventsOf id := by rw [eventsOf, same, eventsOf]

theorem lastHappening?_congr {s' : Store} (same : s'.log = s.log) (id : AttemptId) :
    s'.lastHappening? id = s.lastHappening? id := by
  rw [lastHappening?, lastEvent?, eventsOf_congr same, lastHappening?, lastEvent?]

theorem eventsOf_withEvent (e : Event) (clock : Int) (id : AttemptId) :
    (s.withEvent e clock).eventsOf id =
      s.eventsOf id ++ if e.attempt = id then [e] else [] := by
  by_cases h : e.attempt = id <;> simp [eventsOf, h]

theorem eventsOf_withEvent_self (e : Event) (clock : Int) :
    (s.withEvent e clock).eventsOf e.attempt = s.eventsOf e.attempt ++ [e] := by
  simp [eventsOf_withEvent]

theorem eventsOf_withEvent_of_ne {e : Event} (clock : Int) {id : AttemptId} (ne : e.attempt ≠ id) :
    (s.withEvent e clock).eventsOf id = s.eventsOf id := by
  simp [eventsOf_withEvent, ne]

theorem story_withEvent_self (e : Event) (clock : Int) :
    (s.withEvent e clock).story e.attempt = s.story e.attempt ++ [e.happening] := by
  simp [story, eventsOf_withEvent_self]

theorem story_withEvent_of_ne {e : Event} (clock : Int) {id : AttemptId} (ne : e.attempt ≠ id) :
    (s.withEvent e clock).story id = s.story id := by
  simp [story, eventsOf_withEvent_of_ne clock ne]

theorem lastHappening?_withEvent_self (e : Event) (clock : Int) :
    (s.withEvent e clock).lastHappening? e.attempt = some e.happening := by
  simp [lastHappening?_eq, story_withEvent_self]

end Stories

section Records

@[simp] theorem chats_withAttempt (a : Attempt) (clock : Int) :
    (s.withAttempt a clock).chats = s.chats := rfl

@[simp] theorem chats_withEvent (e : Event) (clock : Int) :
    (s.withEvent e clock).chats = s.chats := rfl

@[simp] theorem chats_withChat (c : Chat) : (s.withChat c).chats = s.chats ++ [c] := rfl

@[simp] theorem chats_setState (id : AttemptId) (state : State) :
    (s.setState id state).chats = s.chats := rfl

@[simp] theorem chats_recordDelivery (d : Delivery) : (s.recordDelivery d).chats = s.chats := rfl

@[simp] theorem deliveries_withAttempt (a : Attempt) (clock : Int) :
    (s.withAttempt a clock).deliveries = s.deliveries := rfl

@[simp] theorem deliveries_withEvent (e : Event) (clock : Int) :
    (s.withEvent e clock).deliveries = s.deliveries := rfl

@[simp] theorem deliveries_withChat (c : Chat) : (s.withChat c).deliveries = s.deliveries := rfl

@[simp] theorem deliveries_setState (id : AttemptId) (state : State) :
    (s.setState id state).deliveries = s.deliveries := rfl

end Records

/-- The records of people are the same. -/
structure SamePeople (s s' : Store) : Prop where
  profiles : s'.profiles = s.profiles
  preferences : s'.preferences = s.preferences
  photos : s'.photos = s.photos

namespace SamePeople

variable {s s' s'' : Store}

theorem refl (s : Store) : s.SamePeople s := ⟨rfl, rfl, rfl⟩

theorem trans (first : s.SamePeople s') (second : s'.SamePeople s'') : s.SamePeople s'' where
  profiles := second.profiles.trans first.profiles
  preferences := second.preferences.trans first.preferences
  photos := second.photos.trans first.photos

theorem withAttempt (s : Store) (a : Attempt) (clock : Int) :
    s.SamePeople (s.withAttempt a clock) :=
  ⟨rfl, rfl, rfl⟩

end SamePeople

section Telling

/-- These happenings, and nothing else, have been written of an attempt. -/
structure Tells (s : Store) (id : AttemptId) (hs : List Happening) (s' : Store) : Prop where
  log : ∃ es : List Event, s'.log = s.log ++ es ∧ es.map Event.happening = hs ∧
    ∀ e ∈ es, e.attempt = id
  rest : s' = { s with log := s'.log, clock := s'.clock }

namespace Tells

variable {s' s'' : Store} {id : AttemptId} {hs hs' : List Happening}

theorem refl (s : Store) (id : AttemptId) : s.Tells id [] s :=
  ⟨⟨[], by simp⟩, rfl⟩

theorem withEvent (s : Store) (e : Event) (clock : Int) :
    s.Tells e.attempt [e.happening] (s.withEvent e clock) :=
  ⟨⟨[e], rfl, rfl, by simp⟩, rfl⟩

theorem trans (tells : s.Tells id hs s') (tells' : s'.Tells id hs' s'') :
    s.Tells id (hs ++ hs') s'' := by
  obtain ⟨es, log, told, about⟩ := tells.log
  obtain ⟨es', log', told', about'⟩ := tells'.log
  refine ⟨⟨es ++ es', ?_, ?_, ?_⟩, ?_⟩
  · rw [log', log, List.append_assoc]
  · rw [List.map_append, told, told']
  · intro e mem
    exact (List.mem_append.1 mem).elim (about e) (about' e)
  · rw [tells'.rest, tells.rest]

theorem attempts (tells : s.Tells id hs s') : s'.attempts = s.attempts := by rw [tells.rest]

theorem chats (tells : s.Tells id hs s') : s'.chats = s.chats := by rw [tells.rest]

theorem deliveries (tells : s.Tells id hs s') : s'.deliveries = s.deliveries := by rw [tells.rest]

theorem samePeople (tells : s.Tells id hs s') : s.SamePeople s' := by
  rw [tells.rest]
  exact ⟨rfl, rfl, rfl⟩

theorem story (tells : s.Tells id hs s') : s'.story id = s.story id ++ hs := by
  obtain ⟨es, log, told, about⟩ := tells.log
  have all : es.filter (·.attempt == id) = es :=
    List.filter_eq_self.2 fun e mem => beq_iff_eq.2 (about e mem)
  rw [Store.story, eventsOf, log, List.filter_append, all, List.map_append, told, Store.story,
    eventsOf]

theorem story_of_ne (tells : s.Tells id hs s') {other : AttemptId} (ne : other ≠ id) :
    s'.story other = s.story other := by
  obtain ⟨es, log, _, about⟩ := tells.log
  have none_of_them : es.filter (·.attempt == other) = [] := by
    apply List.filter_eq_nil_iff.2
    intro e mem same
    exact ne ((beq_iff_eq.1 same).symm.trans (about e mem))
  rw [Store.story, eventsOf, log, List.filter_append, none_of_them, List.append_nil, Store.story,
    eventsOf]

theorem lastHappening?_append (tells : s.Tells id hs s') :
    s'.lastHappening? id = hs.getLast?.or (s.lastHappening? id) := by
  rw [lastHappening?_eq, tells.story, List.getLast?_append, ← lastHappening?_eq]

theorem lastHappening?_self {h : Happening} (tells : s.Tells id [h] s') :
    s'.lastHappening? id = some h := tells.lastHappening?_append

theorem lastHappening?_of_ne (tells : s.Tells id hs s') {other : AttemptId} (ne : other ≠ id) :
    s'.lastHappening? other = s.lastHappening? other := by
  rw [lastHappening?_eq, tells.story_of_ne ne, ← lastHappening?_eq]

end Tells

end Telling

end Store
end Matchmaking
