import Matchmaking.Proofs.Traffic.Consent
import Matchmaking.Proofs.Traffic.Schedule
/-! Where state and log agree. The closing event and the move are two writes of one call, and only
the move is guarded; what comes between them, or after them, is the work of calls that overlap. -/
namespace Matchmaking

def Busy (history : List (CallId × Exchange)) (i : CallId) : Prop := ∃ x, (i, x) ∈ history

/-- There is a moment before and after which both calls have made exchanges. -/
def Overlap (history : List (CallId × Exchange)) (i j : CallId) : Prop :=
  ∃ before after, history = before ++ after ∧ Busy before i ∧ Busy before j ∧ Busy after i ∧
    Busy after j

/-- There is a moment before which both calls, and after which the second has made exchanges. -/
def Halfway (history : List (CallId × Exchange)) (i j : CallId) : Prop :=
  ∃ before after, history = before ++ after ∧ Busy before i ∧ Busy before j ∧ Busy after j

section Histories

variable {history more : List (CallId × Exchange)} {i j : CallId}

theorem Busy.append (busy : Busy history i) (more : List (CallId × Exchange)) :
    Busy (history ++ more) i := by
  obtain ⟨x, mem⟩ := busy
  exact ⟨x, List.mem_append_left _ mem⟩

theorem busy_singleton (i : CallId) (x : Exchange) : Busy [(i, x)] i :=
  ⟨x, List.mem_singleton_self _⟩

theorem Overlap.append (overlap : Overlap history i j) (more : List (CallId × Exchange)) :
    Overlap (history ++ more) i j := by
  obtain ⟨before, after, rfl, first, second, first', second'⟩ := overlap
  exact ⟨before, after ++ more, List.append_assoc .., first, second, first'.append more,
    second'.append more⟩

theorem Halfway.append (halfway : Halfway history i j) (more : List (CallId × Exchange)) :
    Halfway (history ++ more) i j := by
  obtain ⟨before, after, rfl, first, second, second'⟩ := halfway
  exact ⟨before, after ++ more, List.append_assoc .., first, second, second'.append more⟩

theorem Halfway.overlap (halfway : Halfway history i j) (x : Exchange) :
    Overlap (history ++ [(i, x)]) j i := by
  obtain ⟨before, after, rfl, first, second, second'⟩ := halfway
  exact ⟨before, after ++ [(i, x)], List.append_assoc .., second, first, second'.append _,
    ⟨x, by simp⟩⟩

end Histories

namespace Traffic

variable {ruler : Geo.Ruler} {rules : Rules} {t t' : Traffic}

theorem Runs.busy {i : CallId} {c : Call} {st : Stance} {a : Attempt} (runs : t.Runs i c st)
    (concerned : a ∈ st.concerns) : Busy t.history i := by
  by_contra idle
  have silent : t.said i = [] := by
    apply List.filterMap_eq_nil_iff.2
    intro entry mem
    have other : entry.1 ≠ i := by
      intro here
      apply idle
      rw [← here]
      exact ⟨entry.2, mem⟩
    simp [other]
  have free : st = .free := by
    apply runs.stance.symm.trans
    rw [Traffic.stance, silent, Protocol.after_nil]
  rw [free] at concerned
  cases concerned

/-- A call has written the closing event of an attempt and is about to move it. What stands after
the event was appended by calls that had read before it did. -/
structure IsClosing (t : Traffic) (k : CallId) (id : AttemptId) (state : State)
    (front : List Event) (e : Event) (back : List Event) : Prop where
  log : t.store.eventsOf id = front ++ e :: back
  closes : Happening.closing state = some e.happening
  wrote : t.Wrote k e
  late : ∀ d ∈ back, ∃ j, j ≠ k ∧ t.Wrote j d ∧ Halfway t.history k j

/-- A call has closed an attempt. What stands after the closing event was appended by calls that
overlapped with it. -/
structure IsClosed (t : Traffic) (a : Attempt) (k : CallId)
    (before after : List (CallId × Exchange)) (front : List Event) (e : Event)
    (back : List Event) : Prop where
  history : t.history = before ++ (k, ⟨.finishAttempt a.id a.state, .ok ()⟩) :: after
  log : t.store.eventsOf a.id = front ++ e :: back
  closes : Happening.closing a.state = some e.happening
  wrote : (k, ⟨.appendEvent e.attempt e.happening, .ok e⟩) ∈ before
  late : ∀ d ∈ back, ∃ j, j ≠ k ∧ t.Wrote j d ∧ Overlap t.history j k
  concerned : ∀ {j c st b}, t.Runs j c st → b ∈ st.concerns → b.id = a.id → j ≠ k ∧ Busy before j

structure Agreeing (t : Traffic) : Prop where
  closing : ∀ {k c a state}, t.Runs k c (.moving a state) →
    ∃ front e back, t.IsClosing k a.id state front e back
  closed : ∀ a ∈ t.store.attempts, ¬a.isPending →
    ∃ k before after front e back, t.IsClosed a k before after front e back

theorem IsClosing.keep {k : CallId} {id : AttemptId} {state : State} {front back : List Event}
    {e : Event} (closing : t.IsClosing k id state front e back)
    (log : t'.store.eventsOf id = t.store.eventsOf id) (more : List (CallId × Exchange))
    (history : t'.history = t.history ++ more) : t'.IsClosing k id state front e back where
  log := log.trans closing.log
  closes := closing.closes
  wrote := by
    rw [Wrote, history]
    exact List.mem_append_left _ closing.wrote
  late d mem := by
    obtain ⟨j, other, wrote, halfway⟩ := closing.late d mem
    refine ⟨j, other, ?_, ?_⟩
    · rw [Wrote, history]
      exact List.mem_append_left _ wrote
    · rw [history]
      exact halfway.append more

namespace Agreeing

section Turning

variable {faulty : Prop} {i : CallId} {c : Call} {st st' : Stance} {x : Exchange} {s : Store}
  {p : Program Call.Result}

theorem closing_proceed (agreeing : t.Agreeing) (turn : t.Turn faulty i c st x st' s p)
    {k : CallId} {d : Call} {a : Attempt} {state : State}
    (runs : (t.proceed i x p s).Runs k d (.moving a state)) :
    ∃ front e back, (t.proceed i x p s).IsClosing k a.id state front e back := by
  rcases turn.before runs with ⟨rfl, rfl, led⟩ | ⟨other, ran⟩
  · obtain ⟨e, rfl, about, longer, closes⟩ := turn.acts.closes_of_moving led.symm
    exact ⟨t.store.eventsOf a.id, e, [], longer, closes, wrote_proceed_self about p s, by simp⟩
  · obtain ⟨front, e, back, closing⟩ := agreeing.closing ran
    rcases turn.acts.eventsOf_eq a.id with same | ⟨b, d, took, _, rfl, here, about, longer⟩
    · exact ⟨front, e, back, closing.keep same _ rfl⟩
    · refine ⟨front, e, back ++ [d], ?_, closing.closes, closing.wrote.proceed i _ p s, ?_⟩
      · rw [Traffic.proceed, longer, closing.log, List.append_assoc, List.cons_append]
      · intro d' mem
        rcases List.mem_append.1 mem with mem | mem
        · obtain ⟨j, apart, wrote, halfway⟩ := closing.late d' mem
          exact ⟨j, apart, wrote.proceed i _ p s, halfway.append _⟩
        · rw [List.mem_singleton.1 mem]
          have wrote := wrote_proceed_self (t := t) (i := i) (about.trans here.symm) p s
          have reads : b ∈ st.concerns := by
            rw [took]
            exact List.mem_singleton_self _
          exact ⟨i, Ne.symm other, wrote, t.history, _, rfl, ⟨_, closing.wrote⟩,
            turn.runs.busy reads, busy_singleton _ _⟩

theorem closed_keep {a : Attempt} {k : CallId} {before after : List (CallId × Exchange)}
    {front back : List Event} {e : Event} (turn : t.Turn faulty i c st x st' s p)
    (closed : t.IsClosed a k before after front e back) (settled : ¬s.IsOpen a.id) :
    ∃ back, (t.proceed i x p s).IsClosed a k before (after ++ [(i, x)]) front e back := by
  have history : (t.proceed i x p s).history =
      before ++ (k, ⟨.finishAttempt a.id a.state, .ok ()⟩) :: (after ++ [(i, x)]) := by
    simp [Traffic.proceed, closed.history]
  have late {d : Event} (mem : d ∈ back) : ∃ j, j ≠ k ∧ (t.proceed i x p s).Wrote j d ∧
      Overlap (t.proceed i x p s).history j k := by
    obtain ⟨j, apart, wrote, overlap⟩ := closed.late d mem
    exact ⟨j, apart, wrote.proceed i x p s, overlap.append _⟩
  have concerned {j : CallId} {d : Call} {sd : Stance} {b : Attempt}
      (runs : (t.proceed i x p s).Runs j d sd) (mem : b ∈ sd.concerns) (same : b.id = a.id) :
      j ≠ k ∧ Busy before j := by
    rcases turn.before runs with ⟨rfl, rfl, rfl⟩ | ⟨_, ran⟩
    · rcases turn.acts.concerns mem with mem | isOpen
      · exact closed.concerned turn.runs mem same
      · rw [same] at isOpen
        exact absurd isOpen settled
    · exact closed.concerned ran mem same
  rcases turn.acts.eventsOf_eq a.id with same | ⟨b, d, took, _, rfl, here, about, longer⟩
  · exact ⟨back, history, same.trans closed.log, closed.closes, closed.wrote,
      fun d mem => late mem, concerned⟩
  · refine ⟨back ++ [d], history, ?_, closed.closes, closed.wrote, ?_, concerned⟩
    · rw [Traffic.proceed, longer, closed.log, List.append_assoc, List.cons_append]
    · intro d' mem
      rcases List.mem_append.1 mem with mem | mem
      · exact late mem
      · rw [List.mem_singleton.1 mem]
        have reads : b ∈ st.concerns := by
          rw [took]
          exact List.mem_singleton_self _
        obtain ⟨apart, busy⟩ := closed.concerned turn.runs reads here
        have wrote := wrote_proceed_self (t := t) (i := i) (about.trans here.symm) p s
        refine ⟨i, apart, wrote, before, _, history, busy, ⟨_, closed.wrote⟩, ?_, ?_⟩
        · exact ⟨_, List.mem_cons_of_mem _ (List.mem_append_right _ (List.mem_singleton_self _))⟩
        · exact ⟨_, List.mem_cons_self⟩

/-- The move of an attempt, by the call that has written its closing event. -/
theorem closed_move {a b : Attempt} {state : State} (agreeing : t.Agreeing)
    (turn : t.Turn faulty i c (.moving a state) ⟨.finishAttempt a.id state, .ok ()⟩
      (.afterMoving a state) (t.store.setState a.id state) p) (same : b.id = a.id) :
    ∃ before after front e back,
      (t.proceed i ⟨.finishAttempt a.id state, .ok ()⟩ p (t.store.setState a.id state)).IsClosed
        { b with state } i before after front e back := by
  obtain ⟨front, e, back, closing⟩ := agreeing.closing turn.runs
  refine ⟨t.history, [], front, e, back, ?_, ?_, closing.closes, closing.wrote, ?_, ?_⟩
  · exact congrArg (fun id => t.history ++ [(i, (⟨.finishAttempt id state, .ok ()⟩ : Exchange))])
      same.symm
  · simp only [same]
    exact closing.log
  · intro d mem
    obtain ⟨j, apart, wrote, halfway⟩ := closing.late d mem
    exact ⟨j, apart, wrote.proceed i _ p _, halfway.overlap _⟩
  · intro j d sd b' runs mem _
    rcases turn.before runs with ⟨_, _, led⟩ | ⟨other, ran⟩
    · rw [led] at mem
      cases state <;> cases mem
    · exact ⟨other, ran.busy mem⟩

theorem turn (agreeing : t.Agreeing) (turn : t.Turn faulty i c st x st' s p)
    (sound' : (t.proceed i x p s).Sound) : (t.proceed i x p s).Agreeing where
  closing runs := agreeing.closing_proceed turn runs
  closed a mem done := by
    have settled : ¬s.IsOpen a.id := by
      intro isOpen
      obtain ⟨b, stored, same, pending⟩ := isOpen
      rw [sound'.register.unique b stored a mem same] at pending
      exact done pending
    have kept (stored : a ∈ t.store.attempts) : ∃ k before after front e back,
        (t.proceed i x p s).IsClosed a k before after front e back := by
      obtain ⟨k, before, after, front, e, back, closed⟩ := agreeing.closed a stored done
      obtain ⟨back, closed⟩ := closed_keep turn closed settled
      exact ⟨k, before, _, front, e, back, closed⟩
    cases turn.acts with
    | opens clock first second pending =>
      rcases List.mem_append.1 mem with mem | mem
      · exact kept mem
      · rw [List.mem_singleton.1 mem] at done
        exact absurd pending done
    | @moves b d state stored same pending =>
      obtain ⟨old, oldMem, moved⟩ := Store.mem_attempts_setState.1 mem
      by_cases here : old.id = b.id
      · rw [if_pos here] at moved
        rw [moved]
        exact ⟨i, agreeing.closed_move turn here⟩
      · rw [if_neg here] at moved
        rw [moved] at kept ⊢
        exact kept oldMem
    | _ => exact kept mem

end Turning

theorem opening {s : Store} (fresh : s.IsFresh) : (opening s).Agreeing where
  closing runs := absurd runs (not_runs_of_isQuiet rfl)
  closed a mem := by simp [Traffic.opening, fresh.attempts] at mem

theorem keep (agreeing : t.Agreeing) (store : t'.store = t.store) (history : t'.history = t.history)
    (runs : ∀ {i c st}, t'.Runs i c st → t.Runs i c st ∨ st = .free) : t'.Agreeing where
  closing ran := by
    rcases runs ran with ran | led
    · obtain ⟨front, e, back, closing⟩ := agreeing.closing ran
      refine ⟨front, e, back, closing.keep (by rw [store]) [] ?_⟩
      rw [history, List.append_nil]
    · cases led
  closed a mem done := by
    rw [store] at mem
    obtain ⟨k, before, after, front, e, back, closed⟩ := agreeing.closed a mem done
    refine ⟨k, before, after, front, e, back, ?_, ?_, closed.closes, closed.wrote, ?_, ?_⟩
    · rw [history, closed.history]
    · rw [store, closed.log]
    · intro d mem
      obtain ⟨j, apart, wrote, overlap⟩ := closed.late d mem
      rw [history]
      refine ⟨j, apart, ?_, overlap⟩
      rw [Wrote, history]
      exact wrote
    · intro j d sd b ran mem same
      rcases runs ran with ran | led
      · exact closed.concerned ran mem same
      · rw [led] at mem
        cases mem

theorem step (agreeing : t.Agreeing) (sound : t.Sound) (step : Step ruler rules t t') :
    t'.Agreeing := by
  have sound' := sound.step step
  cases sound.abides.shift step with
  | starts c _ =>
    refine agreeing.keep rfl rfl ?_
    intro i d st runs
    rcases sound.abides.runs_launch runs with ran | ⟨_, _, led⟩
    · exact Or.inl ran
    · exact Or.inr led
  | turns turn => exact agreeing.turn turn sound'
  | drops i _ =>
    refine agreeing.keep rfl rfl ?_
    intro j d st runs
    exact Or.inl (runs_drop runs).2

end Agreeing

theorem Reaches.agreeing {s : Store} (reaches : Reaches ruler rules (opening s) t)
    (fresh : s.IsFresh) : t.Agreeing :=
  (Sound.opening fresh).keeps reaches (Agreeing.opening fresh) fun sound agreeing step =>
    agreeing.step sound step

end Traffic

def Stance.closing? : Stance → Option Attempt
  | writing a h => if h.isTerminal then some a else none
  | moving a _ => some a
  | _ => none

theorem Stance.closing_afterWriting (a : Attempt) {h : Happening}
    (resolved : Stage.after (some h) = .resolved) : (afterWriting a h).closing? = some a := by
  cases h <;> first | rfl | cases resolved

theorem Stance.not_settles_of_closing {st : Stance} {a : Attempt} (closing : st.closing? = some a) :
    ¬Call.settles st := by
  cases st with
  | writing b h => exact fun settled => settled
  | moving b state => exact fun settled => settled
  | _ => cases closing

theorem Acts.closing {c : Call} {s s' : Store} {st st' : Stance} {x : Exchange} {a : Attempt}
    (acts : Acts False c s st x st' s') (known : st.Knows c s) (closing : st.closing? = some a)
    (isOpen : s'.IsOpen a.id) : st'.closing? = some a := by
  cases acts with
  | looks idle => exact closing
  | quits cause =>
    have reading := cause.resolve_left id
    cases st with
    | found b side verdict => cases closing
    | courted b => cases closing
    | _ => cases reading
  | @writes b e =>
    generalize e.happening = h at closing
    cases h <;> cases closing <;> rfl
  | @moves b d state =>
    cases closing
    obtain ⟨_, h, closes, _⟩ := known
    obtain ⟨e, mem, same, pending⟩ := isOpen
    obtain ⟨old, _, rfl⟩ := Store.mem_attempts_setState.1 mem
    have moved : old.id = a.id := by
      split at same <;> exact same
    rw [if_pos moved, Attempt.isPending, beq_iff_eq] at pending
    change state = .pending at pending
    rw [pending] at closes
    cases closes
  | late absent =>
    cases closing
    obtain ⟨b, mem, same, pending⟩ := isOpen
    exact absurd pending (absent b mem same)
  | _ => cases closing

namespace Traffic

variable {ruler : Geo.Ruler} {t t' : Traffic}

def Pursued (t : Traffic) : Prop :=
  ∀ a ∈ t.store.attempts, a.isPending → ∀ e ∈ t.store.eventsOf a.id,
    Stage.after (some e.happening) = .resolved →
      ∃ i c st b, t.Runs i c st ∧ st.closing? = some b ∧ b.id = a.id

theorem Pursued.turn {i : CallId} {c : Call} {st st' : Stance} {x : Exchange} {s : Store}
    {p : Program Call.Result} (pursued : t.Pursued) (sound : t.Sound)
    (turn : t.Turn False i c st x st' s p) (sound' : (t.proceed i x p s).Sound) :
    (t.proceed i x p s).Pursued := by
  intro a mem pending e logged resolved
  have old (logged : e ∈ t.store.eventsOf a.id) :
      ∃ i' c st b, (t.proceed i x p s).Runs i' c st ∧ st.closing? = some b ∧ b.id = a.id := by
    obtain ⟨stored, about⟩ := t.store.mem_eventsOf.1 logged
    obtain ⟨_, _, b, signed⟩ := sound.signed e stored
    have same : b.id = a.id := signed.about.trans about
    have open_ : b.isPending := by
      by_contra done
      have stays := (sound.grows turn).mem_attempts signed.mem done
      rw [sound'.register.unique b stays a mem same] at done
      exact done pending
    rw [← same] at logged
    obtain ⟨j, d, sd, b', runs, closing, here⟩ := pursued b signed.mem open_ e logged resolved
    by_cases self : j = i
    · subst self
      obtain ⟨rfl, rfl⟩ := runs.unique turn.runs
      have isOpen : s.IsOpen b'.id := ⟨a, mem, (here.trans same).symm, pending⟩
      have goes_on := turn.acts.closing (sound.known runs) closing isOpen
      exact ⟨j, d, st', b', turn.goes_on (Stance.not_settles_of_closing goes_on), goes_on,
        here.trans same⟩
    · exact ⟨j, d, sd, b', runs.proceed self x p s, closing, here.trans same⟩
  rcases turn.acts.eventsOf_eq a.id with same | ⟨b, e', _, led, _, here, _, longer⟩
  · rw [← same] at old
    exact old logged
  · have mem' : e ∈ t.store.eventsOf a.id ++ [e'] := by
      rw [← longer]
      exact logged
    rcases List.mem_append.1 mem' with before | now
    · exact old before
    · rw [List.mem_singleton.1 now] at resolved
      have closing : st'.closing? = some b := by
        rw [led]
        exact Stance.closing_afterWriting b resolved
      exact ⟨i, c, st', b, turn.goes_on (Stance.not_settles_of_closing closing), closing, here⟩

theorem Pursued.step (pursued : t.Pursued) (sound : t.Sound)
    (step : Step ruler .unfailing t t') : t'.Pursued := by
  have sound' := sound.step step
  cases sound.abides.shift step with
  | starts c _ =>
    intro a mem pending e logged resolved
    obtain ⟨i, d, st, b, runs, closing⟩ := pursued a mem pending e logged resolved
    exact ⟨i, d, st, b, runs.launch ruler c, closing⟩
  | turns turn => exact pursued.turn sound turn sound'
  | drops i allowed => exact allowed.elim

theorem Reaches.pursued {s : Store} (reaches : Reaches ruler .unfailing (opening s) t)
    (fresh : s.IsFresh) : t.Pursued := by
  refine (Sound.opening fresh).keeps reaches ?_ fun sound pursued step => pursued.step sound step
  intro a mem
  simp [opening, fresh.attempts] at mem

def Moved (t : Traffic) (k : CallId) (a : Attempt) : Prop :=
  (k, ⟨.finishAttempt a.id a.state, .ok ()⟩) ∈ t.history

/-- How far state and log agree. -/
structure Agreement (t : Traffic) : Prop where
  /-- The call that has moved an attempt has written the closing event; whatever stands after that
  is of other calls that overlap with it. -/
  settled : ∀ a ∈ t.store.attempts, ∀ h, Happening.closing a.state = some h →
    ∃ k front e back, t.Moved k a ∧ t.store.eventsOf a.id = front ++ e :: back ∧
      e.happening = h ∧ t.Wrote k e ∧
        ∀ d ∈ back, ∃ j, j ≠ k ∧ t.Wrote j d ∧ Overlap t.history j k
  /-- Nothing in the log of a pending attempt resolves it. -/
  pending : ∀ a ∈ t.store.attempts, a.isPending → ∀ h ∈ t.store.story a.id,
    Stage.after (some h) ≠ .resolved

/-- When no call is in flight, the log of a closed attempt has its closing event, which only calls
that overlapped with the closing one may have followed, and no pending attempt is resolved. -/
theorem agreement {ruler : Geo.Ruler} {s : Store} {t : Traffic} (fresh : s.IsFresh)
    (reaches : Reaches ruler .unfailing (opening s) t) (quiet : t.isQuiet) : t.Agreement where
  settled a mem h closes := by
    have done : ¬a.isPending := by
      intro pending
      rw [Attempt.isPending, beq_iff_eq] at pending
      rw [pending] at closes
      cases closes
    obtain ⟨k, before, after, front, e, back, closed⟩ :=
      (Reaches.agreeing reaches fresh).closed a mem done
    refine ⟨k, front, e, back, ?_, closed.log, ?_, ?_, closed.late⟩
    · rw [Moved, closed.history]
      simp
    · exact Option.some.inj (closed.closes.symm.trans closes)
    · rw [Wrote, closed.history]
      exact List.mem_append_left _ closed.wrote
  pending a mem pending h told := by
    intro resolved
    obtain ⟨e, logged, rfl⟩ := List.mem_map.1 told
    obtain ⟨i, c, st, b, runs, _⟩ := reaches.pursued fresh a mem pending e logged resolved
    exact not_runs_of_isQuiet quiet runs

/-- The second person answers with like and dislike at the same time. The dislike is the first to
move the attempt, and the like is the last to write of it. -/
def contest : Traffic :=
  (Scene.village (fun _ _ => true) false).perform (opening (Store.village [1, 2])) <|
    [.start (.next 0 ⟨1⟩)] ++ turns 0 ++ [.start (.swipe ⟨1⟩ 2 .like)] ++ turns 1 ++
      [.start (.swipe ⟨2⟩ 1 .like), .start (.swipe ⟨2⟩ 1 .dislike)] ++
      List.replicate 2 (.turn 2) ++ List.replicate 4 (.turn 3) ++ List.replicate 2 (.turn 2) ++
      turns 3 ++ turns 2

theorem reaches_contest :
    Reaches (fun _ _ => some 0) .unfailing (opening (Store.village [1, 2])) contest := by
  have reaches := Scene.reaches_perform (t := opening (Store.village [1, 2]))
    (Scene.village (fun _ _ => true) false) (Store.isNumbered_village [1, 2])
  refine (reaches _).mono (fun _ _ _ => trivial) ?_
  intro failing
  cases failing

theorem agreement_contest :
    contest.isQuiet ∧ contest.store.attempts.map Attempt.state = [.mismatched] ∧
      contest.Agreement := by
  refine ⟨by decide +kernel, by decide +kernel, ?_⟩
  exact agreement (Store.isFresh_village [1, 2]) reaches_contest (by decide +kernel)

/-- The last event of an attempt is not always the closing event of its state. -/
theorem last_event_disagrees :
    ¬∀ (ruler : Geo.Ruler) (s : Store) (t : Traffic), s.IsFresh →
      Reaches ruler .unfailing (opening s) t → t.isQuiet → ∀ a ∈ t.store.attempts,
        (a.state = .matched → t.store.lastHappening? a.id = some .paired) ∧
        (a.state = .mismatched → t.store.lastHappening? a.id = some .failed) ∧
        (a.isPending → ∀ h, t.store.lastHappening? a.id = some h → ¬h.isTerminal) := by
  intro agrees
  have quiet : contest.isQuiet := by decide +kernel
  have told := agrees _ _ _ (Store.isFresh_village [1, 2]) reaches_contest quiet
  have found : ∃ a ∈ contest.store.attempts, a.state = .mismatched ∧
      contest.store.lastHappening? a.id = some .paired := by
    decide +kernel
  obtain ⟨a, mem, state, last⟩ := found
  have closing := (told a mem).2.1 state
  rw [last] at closing
  cases closing

end Traffic
end Matchmaking
