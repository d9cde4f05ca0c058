import Mathlib.Data.Fintype.EquivFin
import Matchmaking.Proofs.Traffic.Agreement
/-! What becomes of calls that were cut off. A pending attempt that waits for one of its people can
always be closed; one whose last event resolves it is a dead end, and so is a match without its
chat. -/
namespace Matchmaking
namespace Store

/-- A program that can run to its end, every request being served. -/
inductive Completes {α : Type} : Store → Program α → Store → Prop
  | done (s : Store) (a : α) : Completes s (.done a) s
  | fail (s : Store) (e : MatchError) : Completes s (.fail e) s
  | call {s s' s'' : Store} {r : Request} {k : r.Reply → Program α} (reply : r.Reply)
      (served : s.Serves r reply s') (rest : Completes s' (k reply) s'') :
      Completes s (.call r k) s''

theorem exists_unused {β : Type} (number : β → Nat) (entries : List β) :
    ∃ n, ∀ e ∈ entries, number e ≠ n := by
  obtain ⟨n, absent⟩ := Infinite.exists_notMem_finset (entries.map number).toFinset
  refine ⟨n, ?_⟩
  intro e mem taken
  apply absent
  rw [← taken]
  exact List.mem_toFinset.2 (List.mem_map_of_mem mem)

theorem exists_append (s : Store) (id : AttemptId) (h : Happening) :
    ∃ e, s.Serves (.appendEvent id h) (.ok e) (s.withEvent e s.clock) := by
  obtain ⟨number, fresh⟩ := exists_unused Event.id s.log
  exact ⟨⟨number, id, s.now, h⟩, .appends number s.now s.clock fresh⟩

end Store

namespace Attempt

theorem joins_otherOf (a : Attempt) (side : Role) :
    a.joins (a.person side) (Engine.otherOf a (a.person side)) := by
  cases side with
  | first => simp [joins, person, Engine.otherOf]
  | second =>
    by_cases same : a.first = a.second
    · simp [joins, person, Engine.otherOf, same]
    · simp [joins, person, Engine.otherOf, same]

end Attempt

theorem Role.of_person {a : Attempt} (distinct : a.first ≠ a.second) (side : Role) :
    Role.of a (a.person side) = some side := by
  cases side with
  | first => exact Role.of_first a
  | second => simp [Role.of, Attempt.person, distinct]

/-- A dislike by the side that is waited for closes the attempt. -/
theorem completes_dislike {s : Store} {a : Attempt} {side : Role} (ruler : Geo.Ruler)
    (mem : a ∈ s.attempts) (pending : a.isPending) (distinct : a.first ≠ a.second)
    (waits : (s.stage a.id).awaiting = some side) (somebody : a.person side ≠ 0) :
    ∃ s',
      s.Completes ((Call.swipe ⟨a.person side⟩ (Engine.otherOf a (a.person side)) .dislike).program
        ruler) s' ∧ ∃ b ∈ s'.attempts, b.id = a.id ∧ ¬b.isPending := by
  obtain ⟨e, appends⟩ := s.exists_append a.id (.swipe side .dislike)
  obtain ⟨e', closes⟩ := (s.withEvent e s.clock).exists_append a.id .failed
  have stored : a ∈ ((s.withEvent e s.clock).withEvent e' s.clock).attempts := mem
  refine ⟨((s.withEvent e s.clock).withEvent e' s.clock).setState a.id .mismatched, ?_,
    { a with state := .mismatched }, ?_, rfl, ?_⟩
  · have identified : Engine.identify ⟨a.person side⟩ = .ok (a.person side) := if_neg somebody
    have waits' : (Stage.after ((s.lastEvent? a.id).map Event.happening)).awaiting = some side :=
      waits
    simp only [Call.program, Engine.swipe, Engine.asUser, identified]
    refine .call _ (.pendingOfPair mem (a.joins_otherOf side) pending) ?_
    simp only [Program.bind, Program.expect_ok, Program.done_bind, Role.of_person distinct side]
    refine .call _ (.lastEvent a.id) ?_
    simp only [Program.bind, Program.expect_ok, Program.done_bind, Program.pure_eq, waits', ne_eq,
      not_true_eq_false, if_false]
    refine .call _ appends ?_
    refine .call _ closes ?_
    refine .call _ (.finishes .mismatched stored pending) ?_
    exact .done _ _
  · refine Store.mem_attempts_setState.2 ⟨a, mem, ?_⟩
    rw [if_pos rfl]
  · simp [Attempt.isPending]

namespace Traffic

variable {ruler : Geo.Ruler} {rules : Rules} {t t' : Traffic}

def IsAlone (t : Traffic) (i : CallId) : Prop :=
  ∀ j f, j ≠ i → t.flights[j]? = some f → f.rest.isRunning = false

theorem IsAlone.isQuiet {i : CallId} {c : Call} {p : Program Call.Result} (alone : t.IsAlone i)
    (aloft : t.flights[i]? = some ⟨c, p⟩) (ended : p.isRunning = false) : t.isQuiet := by
  apply List.all_eq_true.2
  intro f mem
  obtain ⟨j, found⟩ := List.mem_iff_getElem?.1 mem
  by_cases here : j = i
  · rw [here, aloft] at found
    rw [← Option.some.inj found]
    simp [ended]
  · simp [alone j f here found]

theorem IsAlone.reaches {i : CallId} {c : Call} {p : Program Call.Result} {s s' : Store}
    (completes : s.Completes p s') (alone : t.IsAlone i) (aloft : t.flights[i]? = some ⟨c, p⟩)
    (store : t.store = s) : ∃ t', Reaches ruler rules t t' ∧ t'.isQuiet ∧ t'.store = s' := by
  induction completes generalizing t with
  | done s a => exact ⟨t, .refl, alone.isQuiet aloft rfl, store⟩
  | fail s e => exact ⟨t, .refl, alone.isQuiet aloft rfl, store⟩
  | @call s s₁ s₂ r k reply served rest ih =>
    subst store
    have alone' : (t.proceed i ⟨r, reply⟩ (k reply) s₁).IsAlone i := by
      intro j f other found
      rw [flight_proceed_of_ne other] at found
      exact alone j f other found
    obtain ⟨t', reaches, quiet, store⟩ := ih alone' (flight_proceed_self ⟨r, reply⟩ s₁ aloft) rfl
    exact ⟨t', .head (.serves aloft served) reaches, quiet, store⟩

theorem flight_launch_self (t : Traffic) (ruler : Geo.Ruler) (c : Call) :
    (t.launch ruler c).flights[t.flights.length]? = some ⟨c, c.program ruler⟩ := by
  simp [launch]

theorem isAlone_launch (quiet : t.isQuiet) (c : Call) :
    (t.launch ruler c).IsAlone t.flights.length := by
  intro j f other found
  rcases flight_launch found with found | ⟨here, _⟩
  · have stopped := List.all_eq_true.1 quiet f (List.mem_of_getElem? found)
    simpa using stopped
  · exact absurd here other

theorem reaches_of_quiet {c : Call} {s' : Store} (quiet : t.isQuiet) (allowed : rules.mayStart t c)
    (completes : t.store.Completes (c.program ruler) s') :
    ∃ t', Reaches ruler rules t t' ∧ t'.isQuiet ∧ t'.store = s' := by
  obtain ⟨t', reaches, quiet', store⟩ :=
    IsAlone.reaches completes (isAlone_launch quiet c) (flight_launch_self t ruler c) rfl
  exact ⟨t', .head (.starts c allowed) reaches, quiet', store⟩

/-- A pending attempt that waits for neither side, and that no call is about to write of or to
move. -/
structure IsStuck (t : Traffic) (a : Attempt) : Prop where
  known : t.store.Knows a
  isOpen : t.store.IsOpen a.id
  nobody : ∀ side, (t.store.stage a.id).awaiting = some side → a.person side = 0
  apart : ∀ {i c st b}, t.Runs i c st → st.held? = some b → b.id ≠ a.id

theorem IsStuck.turn {faulty : Prop} {i : CallId} {c : Call} {st st' : Stance} {x : Exchange}
    {s : Store} {p : Program Call.Result} {a : Attempt} (stuck : t.IsStuck a) (sound : t.Sound)
    (turn : t.Turn faulty i c st x st' s p) : (t.proceed i x p s).IsStuck a where
  known := (sound.grows turn).knows stuck.known
  isOpen := turn.acts.isOpen stuck.isOpen fun b holds => stuck.apart turn.runs holds
  nobody side waits := by
    apply stuck.nobody side
    rw [← waits]
    rcases turn.acts.eventsOf_eq a.id with same | ⟨b, e, took, _, _, here, _, _⟩
    · simp only [Traffic.proceed, Store.stage, Store.lastHappening?, Store.lastEvent?, same]
    · rw [took] at turn
      exact absurd here (stuck.apart turn.runs rfl)
  apart {j d sd b} runs holds := by
    rcases turn.before runs with ⟨rfl, rfl, rfl⟩ | ⟨_, ran⟩
    · rcases turn.acts.held (sound.known turn.runs) holds with
        held | fresh | ⟨known, side, waits, own⟩
      · exact stuck.apart turn.runs held
      · obtain ⟨d, mem, same, _⟩ := stuck.isOpen
        intro here
        exact fresh d mem (same.trans here.symm)
      · intro here
        rw [here] at waits
        have person := stuck.nobody side waits
        rw [← t.store.person_congr sound.register known stuck.known here side, own] at person
        obtain ⟨_, _, aloft⟩ := turn.runs.aloft
        exact sound.abides.somebody aloft rfl person
    · exact stuck.apart ran holds

/-- A stuck attempt stays stuck under every step. -/
theorem IsStuck.step {a : Attempt} (stuck : t.IsStuck a) (sound : t.Sound)
    (step : Step ruler rules t t') : t'.IsStuck a := by
  cases sound.abides.shift step with
  | starts c _ =>
    refine ⟨stuck.known, stuck.isOpen, stuck.nobody, ?_⟩
    intro i d st b runs holds
    rcases sound.abides.runs_launch runs with ran | ⟨_, _, rfl⟩
    · exact stuck.apart ran holds
    · cases holds
  | turns turn => exact stuck.turn sound turn
  | drops i _ =>
    refine ⟨stuck.known, stuck.isOpen, stuck.nobody, ?_⟩
    intro j d st b runs holds
    exact stuck.apart (runs_drop runs).2 holds

theorem IsStuck.reaches {a : Attempt} (stuck : t.IsStuck a) (sound : t.Sound)
    (reaches : Reaches ruler rules t t') : t'.IsStuck a :=
  sound.keeps (P := fun t => t.IsStuck a) reaches stuck fun sound stuck step =>
    stuck.step sound step

structure IsChatless (t : Traffic) (a : Attempt) : Prop where
  mem : a ∈ t.store.attempts
  matched : a.state = .matched
  ended : ∀ {i c st}, t.Moved i a → ¬t.Runs i c st
  unopened : ∀ {i chat}, t.Moved i a → (i, ⟨.createChat a.first a.second, .ok chat⟩) ∉ t.history

theorem IsChatless.turn {faulty : Prop} {i : CallId} {c : Call} {st st' : Stance} {x : Exchange}
    {s : Store} {p : Program Call.Result} {a : Attempt} (chatless : t.IsChatless a)
    (sound : t.Sound) (turn : t.Turn faulty i c st x st' s p) :
    (t.proceed i x p s).IsChatless a := by
  have settled : ¬a.isPending := by simp [Attempt.isPending, chatless.matched]
  have old {j : CallId} (moved : (t.proceed i x p s).Moved j a) : t.Moved j a := by
    rcases mem_history_proceed.1 moved with moved | now
    · exact moved
    · obtain ⟨_, finishes⟩ := Prod.mk.inj now
      obtain ⟨b, stored, same, pending⟩ := turn.acts.isOpen_of_finish finishes.symm
      rw [sound.register.unique b stored a chatless.mem same] at pending
      exact absurd pending settled
  have mover {j : CallId} (moved : t.Moved j a) : j ≠ i := by
    intro here
    rw [here] at moved
    exact chatless.ended moved turn.runs
  refine ⟨(sound.grows turn).mem_attempts chatless.mem settled, chatless.matched, ?_, ?_⟩
  · intro j d sd moved runs
    rcases turn.before runs with ⟨here, _, _⟩ | ⟨_, ran⟩
    · exact mover (old moved) here
    · exact chatless.ended (old moved) ran
  · intro j chat moved created
    rcases mem_history_proceed.1 created with created | now
    · exact chatless.unopened (old moved) created
    · exact mover (old moved) (Prod.mk.inj now).1

theorem IsChatless.step {a : Attempt} (chatless : t.IsChatless a) (sound : t.Sound)
    (step : Step ruler rules t t') : t'.IsChatless a := by
  cases sound.abides.shift step with
  | starts c _ =>
    refine ⟨chatless.mem, chatless.matched, ?_, chatless.unopened⟩
    intro i d st moved runs
    rcases sound.abides.runs_launch runs with ran | ⟨late, _, _⟩
    · exact chatless.ended moved ran
    · have started := sound.abides.started _ moved
      rw [late] at started
      exact Nat.lt_irrefl _ started
  | turns turn => exact chatless.turn sound turn
  | drops i _ =>
    refine ⟨chatless.mem, chatless.matched, ?_, chatless.unopened⟩
    intro j d st moved runs
    exact chatless.ended moved (runs_drop runs).2

theorem IsChatless.reaches {a : Attempt} (chatless : t.IsChatless a) (sound : t.Sound)
    (reaches : Reaches ruler rules t t') : t'.IsChatless a :=
  sound.keeps (P := fun t => t.IsChatless a) reaches chatless fun sound chatless step =>
    chatless.step sound step

def HasChat (t : Traffic) (a : Attempt) : Prop :=
  ∃ i, ∃ chat ∈ t.store.chats, t.Moved i a ∧
    (i, ⟨.createChat a.first a.second, .ok chat⟩) ∈ t.history

/-- Some calls of its two people, one after the other and none cut off, close the attempt. -/
def CanClose (ruler : Geo.Ruler) (t : Traffic) (a : Attempt) : Prop :=
  ∃ t', Reaches ruler (.between a.first a.second) t t' ∧ t'.isQuiet ∧
    ∃ b ∈ t'.store.attempts, b.id = a.id ∧ ¬b.isPending

/-- Some such calls, or none, lead to a chat for the match. -/
def CanChat (ruler : Geo.Ruler) (t : Traffic) (a : Attempt) : Prop :=
  ∃ t', Reaches ruler (.between a.first a.second) t t' ∧ t'.isQuiet ∧ t'.HasChat a

namespace Sound

variable {a : Attempt}

theorem canClose (sound : t.Sound) (quiet : t.isQuiet) (mem : a ∈ t.store.attempts)
    (pending : a.isPending) {side : Role} (waits : (t.store.stage a.id).awaiting = some side)
    (somebody : a.person side ≠ 0) : t.CanClose ruler a := by
  have distinct := sound.register.distinct a mem
  obtain ⟨s', completes, closed⟩ := completes_dislike ruler mem pending distinct waits somebody
  have allowed : (Rules.between a.first a.second).mayStart t
      (.swipe ⟨a.person side⟩ (Engine.otherOf a (a.person side)) .dislike) := by
    refine ⟨quiet, ?_⟩
    cases side
    · exact Or.inl rfl
    · exact Or.inr rfl
  obtain ⟨t', reaches, quiet', rfl⟩ := reaches_of_quiet quiet allowed completes
  exact ⟨t', reaches, quiet', closed⟩

/-- A pending attempt that waits for neither side is a dead end. -/
theorem not_canClose (sound : t.Sound) (quiet : t.isQuiet) (mem : a ∈ t.store.attempts)
    (pending : a.isPending)
    (nobody : ∀ side, (t.store.stage a.id).awaiting = some side → a.person side = 0) :
    ¬t.CanClose ruler a := by
  intro can
  obtain ⟨t', reaches, _, b, mem', same, done⟩ := can
  have stuck : t.IsStuck a :=
    ⟨Store.knows_of_mem mem, ⟨a, mem, rfl, pending⟩, nobody,
      fun runs => absurd runs (not_runs_of_isQuiet quiet)⟩
  have sound' := sound.reaches reaches
  obtain ⟨d, stored, here, open_⟩ := (stuck.reaches sound reaches).isOpen
  rw [sound'.register.unique d stored b mem' (here.trans same.symm)] at open_
  exact done open_

theorem hasChat_of_canChat (sound : t.Sound) (quiet : t.isQuiet) (mem : a ∈ t.store.attempts)
    (matched : a.state = .matched) (can : t.CanChat ruler a) : t.HasChat a := by
  by_contra without
  obtain ⟨t', reaches, _, i, chat, _, moved, created⟩ := can
  have chatless : t.IsChatless a :=
    ⟨mem, matched, fun _ => not_runs_of_isQuiet quiet,
      fun moved created => without ⟨_, _, sound.opened created, moved, created⟩⟩
  exact (chatless.reaches sound reaches).unopened moved created

end Sound

/-- After calls one at a time, any of them cut off anywhere, a pending attempt can be closed by its
people exactly if it waits for one of them, and a match can get its chat exactly if it has it. -/
theorem resumable_iff {ruler : Geo.Ruler} {s : Store} {t : Traffic} (fresh : s.IsFresh)
    (reaches : Reaches ruler .sequential (opening s) t) (quiet : t.isQuiet) :
    (∀ a ∈ t.store.attempts, a.isPending → (t.CanClose ruler a ↔
      ∃ side, (t.store.stage a.id).awaiting = some side ∧ a.person side ≠ 0)) ∧
    ∀ a ∈ t.store.attempts, a.state = .matched → (t.CanChat ruler a ↔ t.HasChat a) := by
  have sound := Reaches.sound reaches fresh
  constructor
  · intro a mem pending
    constructor
    · intro can
      by_contra nobody
      refine sound.not_canClose quiet mem pending ?_ can
      intro side waits
      by_contra somebody
      exact nobody ⟨side, waits, somebody⟩
    · intro turn
      obtain ⟨side, waits, somebody⟩ := turn
      exact sound.canClose quiet mem pending waits somebody
  · intro a mem matched
    constructor
    · exact sound.hasChat_of_canChat quiet mem matched
    · intro has
      exact ⟨t, .refl, quiet, has⟩

def cutOff : Traffic :=
  (Scene.village (fun t _ => t.isQuiet) true).perform (opening (Store.village [1, 2])) <|
    [.start (.next 0 ⟨1⟩)] ++ turns 0 ++ [.start (.swipe ⟨1⟩ 2 .dislike)] ++
      List.replicate 3 (.turn 1) ++ [.drop 1]

theorem reaches_cutOff :
    Reaches (fun _ _ => some 0) .sequential (opening (Store.village [1, 2])) cutOff := by
  have reaches := Scene.reaches_perform (t := opening (Store.village [1, 2]))
    (Scene.village (fun t _ => t.isQuiet) true) (Store.isNumbered_village [1, 2])
  exact (reaches _).mono (fun _ _ quiet => quiet) fun _ => trivial

theorem resumable_iff_cutOff :
    cutOff.isQuiet ∧ ∃ a ∈ cutOff.store.attempts, a.isPending ∧
      (cutOff.CanClose (fun _ _ => some 0) a ↔
        ∃ side, (cutOff.store.stage a.id).awaiting = some side ∧ a.person side ≠ 0) := by
  have quiet : cutOff.isQuiet := by decide +kernel
  have found : ∃ a ∈ cutOff.store.attempts, a.isPending := by decide +kernel
  obtain ⟨a, mem, pending⟩ := found
  have exact_ := (resumable_iff (Store.isFresh_village [1, 2]) reaches_cutOff quiet).1 a mem pending
  exact ⟨quiet, a, mem, pending, exact_⟩

/-- Not every pending attempt that a call has left can be closed. -/
theorem dead_end :
    ¬∀ (ruler : Geo.Ruler) (s : Store) (t : Traffic), s.IsFresh →
      Reaches ruler .sequential (opening s) t → t.isQuiet →
        (∀ a ∈ t.store.attempts, a.isPending → t.CanClose ruler a) ∧
        ∀ a ∈ t.store.attempts, a.state = .matched → t.CanChat ruler a := by
  intro resumes
  have fresh := Store.isFresh_village [1, 2]
  have quiet : cutOff.isQuiet := by decide +kernel
  have found : ∃ a ∈ cutOff.store.attempts, a.isPending ∧
      (cutOff.store.stage a.id).awaiting = none := by
    decide +kernel
  obtain ⟨a, mem, pending, resolved⟩ := found
  have can := (resumes _ _ _ fresh reaches_cutOff quiet).1 a mem pending
  refine (Reaches.sound reaches_cutOff fresh).not_canClose quiet mem pending ?_ can
  intro side waits
  rw [resolved] at waits
  cases waits

end Traffic
end Matchmaking
