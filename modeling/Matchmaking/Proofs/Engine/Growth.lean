import Matchmaking.Proofs.Engine.Act
/-! What no act undoes: attempts stay with their people, a final state is final, and the log only
grows. -/
namespace Matchmaking
namespace Store

/-- The later store has everything that the earlier one had. -/
structure Grows (s s' : Store) : Prop where
  attempts : ∀ a ∈ s.attempts, ∃ b ∈ s'.attempts,
    b.id = a.id ∧ b.first = a.first ∧ b.second = a.second ∧ (¬a.isPending → b = a)
  log : s.log <+: s'.log
  chats : s.chats <+: s'.chats

def IsOpen (s : Store) (id : AttemptId) : Prop := ∃ a ∈ s.attempts, a.id = id ∧ a.isPending

def Knows (s : Store) (a : Attempt) : Prop :=
  ∃ b ∈ s.attempts, b.id = a.id ∧ b.first = a.first ∧ b.second = a.second

theorem knows_of_mem {s : Store} {a : Attempt} (mem : a ∈ s.attempts) : s.Knows a :=
  ⟨a, mem, rfl, rfl, rfl⟩

namespace Grows

variable {s s' : Store}

theorem refl (s : Store) : s.Grows s where
  attempts a mem := ⟨a, mem, rfl, rfl, rfl, fun _ => rfl⟩
  log := List.prefix_rfl
  chats := List.prefix_rfl

theorem withAttempt (s : Store) (a : Attempt) (clock : Int) : s.Grows (s.withAttempt a clock) where
  attempts b mem := ⟨b, List.mem_append_left _ mem, rfl, rfl, rfl, fun _ => rfl⟩
  log := List.prefix_rfl
  chats := List.prefix_rfl

theorem withEvent (s : Store) (e : Event) (clock : Int) : s.Grows (s.withEvent e clock) where
  attempts b mem := ⟨b, mem, rfl, rfl, rfl, fun _ => rfl⟩
  log := List.prefix_append _ _
  chats := List.prefix_rfl

theorem withChat (s : Store) (chat : Chat) : s.Grows (s.withChat chat) :=
  ⟨(refl s).attempts, (refl s).log, List.prefix_append _ _⟩

theorem recordDelivery (s : Store) (d : Delivery) : s.Grows (s.recordDelivery d) :=
  ⟨(refl s).attempts, (refl s).log, (refl s).chats⟩

theorem setState {b : Attempt} (unique : ∀ a ∈ s.attempts, a.id = b.id → a = b)
    (pending : b.isPending) (state : State) : s.Grows (s.setState b.id state) where
  attempts a mem := by
    refine ⟨_, mem_attempts_setState.2 ⟨a, mem, rfl⟩, ?_⟩
    by_cases same : a.id = b.id
    · rw [if_pos same]
      refine ⟨rfl, rfl, rfl, ?_⟩
      intro done
      rw [unique a mem same] at done
      exact absurd pending done
    · rw [if_neg same]
      exact ⟨rfl, rfl, rfl, fun _ => rfl⟩
  log := List.prefix_rfl
  chats := List.prefix_rfl

theorem knows (grows : s.Grows s') {a : Attempt} (knows : s.Knows a) : s'.Knows a := by
  obtain ⟨b, mem, id, first, second⟩ := knows
  obtain ⟨b', mem', id', first', second', _⟩ := grows.attempts b mem
  exact ⟨b', mem', id'.trans id, first'.trans first, second'.trans second⟩

theorem story (grows : s.Grows s') (id : AttemptId) : s.story id <+: s'.story id :=
  (grows.log.filter _).map _

theorem mem_attempts (grows : s.Grows s') {a : Attempt} (mem : a ∈ s.attempts)
    (settled : ¬a.isPending) : a ∈ s'.attempts := by
  obtain ⟨b, mem', _, _, _, same⟩ := grows.attempts a mem
  rwa [same settled] at mem'

end Grows

structure IsRegister (s : Store) : Prop where
  unique : ∀ a ∈ s.attempts, ∀ b ∈ s.attempts, a.id = b.id → a = b
  distinct : ∀ a ∈ s.attempts, a.first ≠ a.second
  somebody : ∀ a ∈ s.attempts, a.first ≠ 0

theorem IsRegister.congr {s s' : Store} (register : s.IsRegister)
    (same : s'.attempts = s.attempts) : s'.IsRegister := by
  constructor <;> rw [same]
  · exact register.unique
  · exact register.distinct
  · exact register.somebody

theorem IsRegister.withAttempt {s : Store} {a : Attempt} (register : s.IsRegister)
    (fresh : ∀ b ∈ s.attempts, b.id ≠ a.id) (distinct : a.first ≠ a.second)
    (somebody : a.first ≠ 0) (clock : Int) : (s.withAttempt a clock).IsRegister where
  unique b mem d mem' same := by
    simp only [attempts_withAttempt, List.mem_append, List.mem_singleton] at mem mem'
    rcases mem with mem | rfl <;> rcases mem' with mem' | rfl
    · exact register.unique b mem d mem' same
    · exact absurd same (fresh b mem)
    · exact absurd same.symm (fresh d mem')
    · rfl
  distinct b mem := by
    rcases List.mem_append.1 mem with mem | mem
    · exact register.distinct b mem
    · rwa [List.mem_singleton.1 mem]
  somebody b mem := by
    rcases List.mem_append.1 mem with mem | mem
    · exact register.somebody b mem
    · rwa [List.mem_singleton.1 mem]

theorem IsRegister.setState {s : Store} (register : s.IsRegister) (id : AttemptId)
    (state : State) : (s.setState id state).IsRegister where
  unique b mem d mem' same := by
    obtain ⟨b, stored, rfl⟩ := mem_attempts_setState.1 mem
    obtain ⟨d, stored', rfl⟩ := mem_attempts_setState.1 mem'
    have ids : b.id = d.id := by
      split at same <;> split at same <;> exact same
    rw [register.unique b stored d stored' ids]
  distinct b mem := by
    obtain ⟨b, stored, rfl⟩ := mem_attempts_setState.1 mem
    split <;> exact register.distinct b stored
  somebody b mem := by
    obtain ⟨b, stored, rfl⟩ := mem_attempts_setState.1 mem
    split <;> exact register.somebody b stored

theorem person_congr (s : Store) (register : s.IsRegister) {a b : Attempt} (known : s.Knows b)
    (known' : s.Knows a) (same : b.id = a.id) (side : Role) : b.person side = a.person side := by
  obtain ⟨b', mem, id, first, second⟩ := known
  obtain ⟨a', mem', id', first', second'⟩ := known'
  have one : b' = a' := register.unique b' mem a' mem' (id.trans (same.trans id'.symm))
  subst one
  cases side
  · exact first.symm.trans first'
  · exact second.symm.trans second'

end Store

namespace Acts

variable {faulty : Prop} {c : Call} {s s' : Store} {st st' : Stance} {x : Exchange}

theorem grows (acts : Acts faulty c s st x st' s') (register : s.IsRegister) : s.Grows s' := by
  cases acts with
  | opens clock => exact .withAttempt s _ clock
  | writes clock => exact .withEvent s _ clock
  | moves state mem same pending =>
    rw [← same]
    exact .setState (fun a ha => register.unique a ha _ mem) pending state
  | chats => exact .withChat s _
  | tells => exact .recordDelivery s _
  | _ => exact .refl s

theorem eventsOf_eq (acts : Acts faulty c s st x st' s') (id : AttemptId) :
    s'.eventsOf id = s.eventsOf id ∨
      ∃ a e, st = .writing a e.happening ∧ st' = .afterWriting a e.happening ∧
        x = ⟨.appendEvent a.id e.happening, .ok e⟩ ∧ a.id = id ∧ e.attempt = id ∧
        s'.eventsOf id = s.eventsOf id ++ [e] := by
  cases acts with
  | @writes a e clock about fresh =>
    by_cases same : e.attempt = id
    · refine Or.inr ⟨a, e, rfl, rfl, rfl, about.symm.trans same, same, ?_⟩
      rw [← same, Store.eventsOf_withEvent_self]
    · exact Or.inl (Store.eventsOf_withEvent_of_ne clock same)
  | _ => exact Or.inl rfl

theorem isOpen_of_finish (acts : Acts faulty c s st x st' s') {id : AttemptId} {state : State}
    (moved : x = ⟨.finishAttempt id state, .ok ()⟩) : s.IsOpen id := by
  have loud : x.succeeds = true := by
    rw [moved]
    rfl
  cases acts with
  | writes => cases moved
  | moves state' mem same pending =>
    cases moved
    exact ⟨_, mem, same, pending⟩
  | chats => cases moved
  | _ => contradiction

theorem mem_chats (acts : Acts faulty c s st x st' s') {u v : UserId} {chat : Chat}
    (opened : x = ⟨.createChat u v, .ok chat⟩) : chat ∈ s'.chats := by
  have loud : x.succeeds = true := by
    rw [opened]
    rfl
  cases acts with
  | writes => cases opened
  | moves => cases opened
  | chats =>
    cases opened
    exact List.mem_append_right _ (List.mem_singleton_self _)
  | _ => contradiction

theorem isOpen (acts : Acts faulty c s st x st' s') {id : AttemptId} (isOpen : s.IsOpen id)
    (apart : ∀ b, st.held? = some b → b.id ≠ id) : s'.IsOpen id := by
  obtain ⟨b, mem, same, pending⟩ := isOpen
  cases acts with
  | opens => exact ⟨b, List.mem_append_left _ mem, same, pending⟩
  | @moves a d state =>
    refine ⟨b, Store.mem_attempts_setState.2 ⟨b, mem, ?_⟩, same, pending⟩
    rw [if_neg]
    rw [same]
    exact Ne.symm (apart a rfl)
  | _ => exact ⟨b, mem, same, pending⟩

theorem closes_of_moving {a : Attempt} {state : State} (acts : Acts faulty c s st x st' s')
    (led : st' = .moving a state) :
    ∃ e, x = ⟨.appendEvent a.id e.happening, .ok e⟩ ∧ e.attempt = a.id ∧
      s'.eventsOf a.id = s.eventsOf a.id ++ [e] ∧ Happening.closing state = some e.happening := by
  cases acts with
  | looks idle =>
    rw [led] at idle
    cases idle
  | @lists as => cases as <;> cases led
  | @resumes b rest =>
    generalize s.lastHappening? b.id = last at led
    rcases last with _ | last
    · cases led
    · cases last <;> cases rest <;> cases led
  | @writes b e clock about fresh =>
    have same : b = a ∧ Happening.closing state = some e.happening := by
      generalize e.happening = h at led
      cases h <;> cases led <;> exact ⟨rfl, rfl⟩
    obtain ⟨rfl, closes⟩ := same
    refine ⟨e, rfl, about, ?_, closes⟩
    rw [← about, Store.eventsOf_withEvent_self]
  | @moves b d state' => cases state' <;> cases led
  | @tells b side rest => cases rest <;> cases led
  | @misses b kind side rest => cases rest <;> cases led
  | _ => cases led

theorem concerns (acts : Acts faulty c s st x st' s') {b : Attempt} (mem : b ∈ st'.concerns) :
    b ∈ st.concerns ∨ s'.IsOpen b.id := by
  cases acts with
  | finds made stored pending =>
    cases List.mem_singleton.1 mem
    exact Or.inr ⟨b, stored, rfl, pending⟩
  | lists all =>
    have listed := Stance.mem_of_concerns_through mem
    exact Or.inr ⟨b, (all b listed).1, rfl, (all b listed).2.2⟩
  | courts liker =>
    cases List.mem_singleton.1 mem
    exact Or.inr ⟨b, liker.mem, rfl, liker.pending⟩
  | opens clock first second pending =>
    cases List.mem_singleton.1 mem
    exact Or.inr ⟨b, by simp, rfl, pending⟩
  | resumes => exact Or.inl (Stance.mem_of_concerns_afterLooking mem)
  | writes => exact Or.inl (Stance.mem_of_concerns_afterWriting mem)
  | @moves a b state => cases state <;> cases mem
  | @tells a side rest => cases rest <;> cases mem
  | @misses a kind side rest => cases rest <;> cases mem
  | quits | late | chats => cases mem
  | looks | answers | shows => exact Or.inl mem

theorem isRegister (acts : Acts faulty c s st x st' s') (register : s.IsRegister)
    (somebody : c.user ≠ 0) : s'.IsRegister := by
  cases acts with
  | opens clock first second pending free fresh =>
    rw [← first] at second somebody
    exact register.withAttempt fresh (Ne.symm second) somebody clock
  | moves state => exact register.setState _ state
  | _ => exact ⟨register.unique, register.distinct, register.somebody⟩

end Acts
end Matchmaking
