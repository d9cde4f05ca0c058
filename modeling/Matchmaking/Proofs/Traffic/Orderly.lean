import Matchmaking.Proofs.Traffic.Consent
/-! People who act one request at a time. The turn rule then hands an attempt to one call at a
time: the call about to write of an attempt, or to move it, is alone in that, and has read its
last event. -/
namespace Matchmaking

def Stance.IsReady (s : Store) : Stance → Prop
  | writing a h => s.IsOpen a.id ∧ Happening.follows (s.lastHappening? a.id) h = true
  | moving a state => s.IsOpen a.id ∧ s.lastHappening? a.id = Happening.closing state
  | _ => True

theorem Stance.isReady_of_not_held {s : Store} {st : Stance} (free : st.held? = none) :
    st.IsReady s := by
  cases st with
  | writing a h => cases free
  | moving a state => cases free
  | _ => trivial

theorem Stance.IsReady.congr {s s' : Store} {st : Stance} (ready : st.IsReady s)
    (same : ∀ a, st.held? = some a → (s.IsOpen a.id → s'.IsOpen a.id) ∧
      s'.lastHappening? a.id = s.lastHappening? a.id) : st.IsReady s' := by
  cases st with
  | writing a h =>
    obtain ⟨stays, last⟩ := same a rfl
    refine ⟨stays ready.1, ?_⟩
    rw [last]
    exact ready.2
  | moving a state =>
    obtain ⟨stays, last⟩ := same a rfl
    refine ⟨stays ready.1, ?_⟩
    rw [last]
    exact ready.2
  | _ => trivial

namespace Stage

theorem resolved_of_closing {state : State} {h : Happening}
    (closes : Happening.closing state = some h) : Stage.after (some h) = .resolved := by
  cases state <;> cases closes <;> rfl

theorem resolved_of_follows {last : Option Happening} {h : Happening}
    (valid : Happening.follows last h = true) (terminal : h.isTerminal) :
    Stage.after last = .resolved := by
  rcases last with _ | last
  · cases h <;> simp_all [Happening.follows, Happening.isTerminal]
  · cases last <;> cases h <;> simp_all [Happening.follows, Happening.isTerminal, Stage.after]

end Stage

namespace Happening

theorem review_append_singleton (last : Option Happening) (story : List Happening)
    (h : Happening) :
    review last (story ++ [h]) =
      review last story ++ [(follows (story.getLast?.or last) h, Stage.after (some h))] := by
  induction story generalizing last with
  | nil => rfl
  | cons k rest ih =>
    have latest : (k :: rest).getLast?.or last = rest.getLast?.or (some k) := by
      rw [List.getLast?_cons]
      cases rest.getLast? <;> rfl
    rw [latest, List.cons_append, review, review, ih, List.cons_append]

def IsNarrative (story : List Happening) : Prop := ∀ step ∈ review none story, step.1 = true

theorem isNarrative_append_singleton {story : List Happening} {h : Happening} :
    IsNarrative (story ++ [h]) ↔ IsNarrative story ∧ follows story.getLast? h = true := by
  simp [IsNarrative, review_append_singleton, or_imp, forall_and]

theorem IsNarrative.append {story : List Happening} {h : Happening} (valid : IsNarrative story)
    (next : follows story.getLast? h = true) : IsNarrative (story ++ [h]) :=
  isNarrative_append_singleton.2 ⟨valid, next⟩

end Happening

theorem Stance.exists_of_held {c : Call} {s : Store} {st : Stance} {a : Attempt}
    (known : st.Knows c s) (held : st.held? = some a) : ∃ b ∈ s.attempts, b.id = a.id := by
  have here : s.Knows a := by
    cases st with
    | writing b h =>
      cases held
      exact known.1
    | moving b state =>
      cases held
      exact known.1
    | _ => cases held
  obtain ⟨b, mem, id, _⟩ := here
  exact ⟨b, mem, id⟩

namespace Traffic

/-- An attempt is never left alone half done. -/
structure Tended (t : Traffic) (a : Attempt) : Prop where
  /-- The call that has opened it is about to write its first event. -/
  begun : t.store.lastHappening? a.id = none →
    ∃ i c b, t.Runs i c (.writing b .created) ∧ b.id = a.id
  /-- The call that has resolved it is about to close it. -/
  pursued : a.isPending → ∀ e, t.store.lastEvent? a.id = some e →
    Stage.after (some e.happening) = .resolved →
      ∃ i c st b, t.Runs i c st ∧ st.held? = some b ∧ b.id = a.id ∧ c.isSwipe ∧ t.Wrote i e
  closed : ∀ h, Happening.closing a.state = some h → t.store.lastHappening? a.id = some h

structure Orderly (t : Traffic) : Prop where
  single : ∀ {i j c d st st'}, t.Runs i c st → t.Runs j d st' → c.user = d.user → i = j
  /-- An attempt is held by one call at a time. -/
  alone : ∀ {i j c d st st' a b}, t.Runs i c st → t.Runs j d st' → st.held? = some a →
    st'.held? = some b → a.id = b.id → i = j
  ready : ∀ {i c st}, t.Runs i c st → st.IsReady t.store
  tended : ∀ a ∈ t.store.attempts, t.Tended a
  narrative : ∀ id, Happening.IsNarrative (t.store.story id)

variable {ruler : Geo.Ruler} {rules : Rules} {t t' : Traffic}

/-- An attempt stays tended while its last event stays and no call lets go of it. -/
theorem Tended.keep {a b : Attempt} (tended : t.Tended a) (id : b.id = a.id)
    (state : b.state = a.state) (last : t'.store.lastEvent? a.id = t.store.lastEvent? a.id)
    (history : ∀ i e, t.Wrote i e → t'.Wrote i e)
    (holds : ∀ {i c st d}, t.Runs i c st → st.held? = some d → d.id = a.id → t'.Runs i c st) :
    t'.Tended b where
  begun silent := by
    rw [id, Store.lastHappening?, last] at silent
    obtain ⟨i, c, d, runs, same⟩ := tended.begun silent
    exact ⟨i, c, d, holds runs rfl same, same.trans id.symm⟩
  pursued pending e found resolved := by
    rw [id, last] at found
    rw [Attempt.isPending, state] at pending
    obtain ⟨i, c, st, d, runs, held, same, swipes, wrote⟩ :=
      tended.pursued pending e found resolved
    exact ⟨i, c, st, d, holds runs held same, held, same.trans id.symm, swipes, history i e wrote⟩
  closed h closes := by
    rw [state] at closes
    rw [id, Store.lastHappening?, last]
    exact tended.closed h closes

namespace Orderly

section Entering

variable {i : CallId} {c : Call} {st : Stance} {a : Attempt} {side : Role}

theorem isOpen_of_turn (orderly : t.Orderly) (known : t.store.Knows a)
    (turn : (t.store.stage a.id).awaiting = some side) : t.store.IsOpen a.id := by
  obtain ⟨b, mem, id, _⟩ := known
  refine ⟨b, mem, id, ?_⟩
  rw [Attempt.isPending, beq_iff_eq]
  have open_ (h : Happening) (closes : Happening.closing b.state = some h) : False := by
    have last := (orderly.tended b mem).closed h closes
    rw [id] at last
    rw [Store.stage, last, Stage.resolved_of_closing closes] at turn
    simp [Stage.awaiting] at turn
  cases state : b.state with
  | pending => rfl
  | matched => exact (open_ .paired (by rw [state]; rfl)).elim
  | mismatched => exact (open_ .failed (by rw [state]; rfl)).elim

theorem eq_of_turn (sound : t.Sound) (orderly : t.Orderly) (runs : t.Runs i c st)
    (known : t.store.Knows a) (turn : (t.store.stage a.id).awaiting = some side)
    (own : a.person side = c.user) {j : CallId} {d : Call} {sd : Stance} {b : Attempt}
    (runs' : t.Runs j d sd) (held : sd.held? = some b) (same : b.id = a.id) : j = i := by
  have ready := orderly.ready runs'
  have known' := sound.known runs'
  have unresolved : Stage.after (t.store.lastHappening? b.id) ≠ .resolved := by
    intro resolved
    rw [same] at resolved
    rw [Store.stage, resolved] at turn
    simp [Stage.awaiting] at turn
  cases sd with
  | writing b h =>
    cases held
    obtain ⟨_, valid⟩ := ready
    have running : h.isTerminal = false := by
      by_contra terminal
      exact unresolved (Stage.resolved_of_follows valid (by simpa using terminal))
    have turn' := Happening.awaiting_of_follows valid running
    rw [same, ← Store.stage, turn] at turn'
    have person := known'.2.1.side running
    rw [← Option.some.inj turn'] at person
    apply orderly.single runs' runs
    rw [← person, ← own]
    exact t.store.person_congr sound.register known'.1 known same side
  | moving b state =>
    cases held
    obtain ⟨_, last⟩ := ready
    obtain ⟨_, h, closes, _⟩ := known'
    rw [last, closes, Stage.resolved_of_closing closes] at unresolved
    exact absurd rfl unresolved
  | _ => cases held

end Entering

section Turning

variable {faulty : Prop} {i : CallId} {c : Call} {st st' : Stance} {x : Exchange} {s : Store}
  {p : Program Call.Result}

/-- A turn keeps the order when it touches only attempts that no other call holds, among them what
its caller has held and comes to hold, and leaves these as they should be. -/
theorem proceed (orderly : t.Orderly) (turn : t.Turn faulty i c st x st' s p)
    (touched : AttemptId → Prop)
    (mine : ∀ {j d sd b}, t.Runs j d sd → sd.held? = some b → touched b.id → j = i)
    (held : ∀ b, st.held? = some b → touched b.id)
    (holds : ∀ b, st'.held? = some b → touched b.id) (ready : st'.IsReady s)
    (isOpen : ∀ id, ¬touched id → t.store.IsOpen id → s.IsOpen id)
    (last : ∀ id, ¬touched id → s.lastEvent? id = t.store.lastEvent? id)
    (old : ∀ b ∈ s.attempts, ¬touched b.id → b ∈ t.store.attempts)
    (tended : ∀ b ∈ s.attempts, touched b.id → (t.proceed i x p s).Tended b)
    (narrative : ∀ id, Happening.IsNarrative (s.story id)) : (t.proceed i x p s).Orderly where
  single runs runs' same := by
    rcases turn.before runs with ⟨rfl, rfl, _⟩ | ⟨_, ran⟩ <;>
      rcases turn.before runs' with ⟨rfl, rfl, _⟩ | ⟨_, ran'⟩
    · rfl
    · exact orderly.single turn.runs ran' same
    · exact orderly.single ran turn.runs same
    · exact orderly.single ran ran' same
  alone {j k d e sd se a b} runs runs' takes takes' same := by
    rcases turn.before runs with ⟨here, _, led⟩ | ⟨_, ran⟩ <;>
      rcases turn.before runs' with ⟨here', _, led'⟩ | ⟨_, ran'⟩
    · rw [here, here']
    · rw [led] at takes
      have touches := holds a takes
      rw [same] at touches
      rw [here, mine ran' takes' touches]
    · rw [led'] at takes'
      have touches := holds b takes'
      rw [← same] at touches
      rw [here', mine ran takes touches]
    · exact orderly.alone ran ran' takes takes' same
  ready {j d sd} runs := by
    rcases turn.before runs with ⟨_, _, rfl⟩ | ⟨other, ran⟩
    · exact ready
    · apply (orderly.ready ran).congr
      intro b takes
      have apart : ¬touched b.id := fun touches => other (mine ran takes touches)
      exact ⟨isOpen b.id apart, congrArg (Option.map Event.happening) (last b.id apart)⟩
  tended b mem := by
    by_cases touches : touched b.id
    · exact tended b mem touches
    · refine (orderly.tended b (old b mem touches)).keep rfl rfl (last b.id touches) ?_ ?_
      · intro j e wrote
        exact wrote.proceed i x p s
      · intro j d sd a runs takes same
        have other : j ≠ i := by
          apply turn.ne_of_stance_ne runs
          intro stands
          rw [stands] at takes
          rw [← same] at touches
          exact touches (held a takes)
        exact runs.proceed other x p s
  narrative := narrative

/-- A turn of a call that holds nothing and changes neither attempts nor log. If it comes to hold an
attempt, no other call holds that one, and what it is about to do is in order. -/
theorem still (orderly : t.Orderly) (turn : t.Turn faulty i c st x st' s p)
    (free : st.held? = none) (attempts : s.attempts = t.store.attempts)
    (log : s.log = t.store.log) (ready : st'.IsReady s)
    (mine : ∀ {j d sd a b}, st'.held? = some a → t.Runs j d sd → sd.held? = some b →
      b.id = a.id → j = i) : (t.proceed i x p s).Orderly := by
  have last (id : AttemptId) : s.lastEvent? id = t.store.lastEvent? id := by
    rw [Store.lastEvent?, Store.eventsOf_congr log, Store.lastEvent?]
  refine orderly.proceed turn (fun id => ∃ a, st'.held? = some a ∧ a.id = id) ?_ ?_ ?_ ready ?_ ?_
    ?_ ?_ ?_
  · intro j d sd b runs takes touches
    obtain ⟨a, taken, same⟩ := touches
    exact mine taken runs takes same.symm
  · intro b takes
    rw [free] at takes
    cases takes
  · intro b takes
    exact ⟨b, takes, rfl⟩
  · intro id _ isOpen
    obtain ⟨b, mem, found⟩ := isOpen
    rw [← attempts] at mem
    exact ⟨b, mem, found⟩
  · intro id _
    exact last id
  · intro b mem _
    rwa [attempts] at mem
  · intro b mem _
    rw [attempts] at mem
    refine (orderly.tended b mem).keep rfl rfl (last b.id) ?_ ?_
    · intro j e wrote
      exact wrote.proceed i x p s
    · intro j d sd a runs takes same
      have other : j ≠ i := by
        apply turn.ne_of_stance_ne runs
        intro stands
        rw [stands, free] at takes
        cases takes
      exact runs.proceed other x p s
  · intro id
    rw [Store.story, Store.eventsOf_congr log]
    exact orderly.narrative id

theorem opens {a : Attempt} {clock : Int} (sound : t.Sound) (orderly : t.Orderly)
    (turn : t.Turn faulty i c .free x (.writing a .created) (t.store.withAttempt a clock) p)
    (pending : a.isPending) (fresh : ∀ b ∈ t.store.attempts, b.id ≠ a.id) :
    (t.proceed i x p (t.store.withAttempt a clock)).Orderly := by
  have silent := Store.eventsOf_of_fresh sound.exists_of_logged fresh
  have none_yet : (t.store.withAttempt a clock).lastEvent? a.id = none := by
    rw [Store.lastEvent?, Store.eventsOf_congr (Store.log_withAttempt a clock), silent]
    rfl
  refine orderly.proceed turn (· = a.id) ?_ ?_ ?_ ?_ ?_ ?_ ?_ ?_ ?_
  · intro j d sd b runs takes same
    obtain ⟨b', mem, id⟩ := Stance.exists_of_held (sound.known runs) takes
    exact absurd (id.trans same) (fresh b' mem)
  · intro b takes
    cases takes
  · intro b takes
    cases takes
    rfl
  · refine ⟨⟨a, by simp, rfl, pending⟩, ?_⟩
    rw [Store.lastHappening?, none_yet]
    rfl
  · intro id _ isOpen
    obtain ⟨b, mem, found⟩ := isOpen
    exact ⟨b, List.mem_append_left _ mem, found⟩
  · intro id _
    rfl
  · intro b mem other
    rcases List.mem_append.1 mem with mem | mem
    · exact mem
    · rw [List.mem_singleton.1 mem] at other
      exact absurd rfl other
  · intro b mem same
    have one : b = a := by
      rcases List.mem_append.1 mem with mem | mem
      · exact absurd same (fresh b mem)
      · exact List.mem_singleton.1 mem
    subst one
    refine ⟨?_, ?_, ?_⟩
    · intro _
      exact ⟨i, c, b, turn.goes_on (Stance.not_settles_of_held rfl), rfl⟩
    · intro _ e found
      simp only [Traffic.proceed, none_yet] at found
      cases found
    · intro h closes
      rw [Attempt.isPending, beq_iff_eq] at pending
      rw [pending] at closes
      cases closes
  · exact orderly.narrative

/-- What is written is in order, and a verdict is pursued by the call that has written it. -/
theorem writes {a : Attempt} {e : Event} {clock : Int} (sound : t.Sound) (orderly : t.Orderly)
    (turn : t.Turn faulty i c (.writing a e.happening)
      ⟨.appendEvent a.id e.happening, .ok e⟩ (.afterWriting a e.happening)
      (t.store.withEvent e clock) p) (about : e.attempt = a.id) :
    (t.proceed i ⟨.appendEvent a.id e.happening, .ok e⟩ p (t.store.withEvent e clock)).Orderly := by
  obtain ⟨⟨b, mem, id, pending⟩, valid⟩ := orderly.ready turn.runs
  have known := sound.known turn.runs
  have latest : (t.store.withEvent e clock).lastHappening? a.id = some e.happening := by
    rw [← about, Store.lastHappening?_withEvent_self]
  have isOpen : (t.store.withEvent e clock).IsOpen a.id := ⟨b, mem, id, pending⟩
  refine orderly.proceed turn (· = a.id) ?_ ?_ ?_ ?_ ?_ ?_ ?_ ?_ ?_
  · intro j d sd b runs takes same
    exact orderly.alone runs turn.runs takes rfl same
  · intro b takes
    cases takes
    rfl
  · intro b takes
    rw [Stance.eq_of_held_afterWriting takes]
  · generalize e.happening = h at latest
    cases h
    case created | firstDisliked | secondDisliked | secondLiked =>
      refine ⟨isOpen, ?_⟩
      rw [latest]
      rfl
    case paired | failed => exact ⟨isOpen, latest⟩
    case shownToFirst | shownToSecond | firstLiked => trivial
  · intro id _ isOpen
    exact isOpen
  · intro id other
    rw [Store.lastEvent?, Store.eventsOf_withEvent_of_ne clock, Store.lastEvent?]
    rw [about]
    exact Ne.symm other
  · intro b mem _
    exact mem
  · intro b' mem' same
    have one : b' = b := sound.register.unique b' mem' b mem (same.trans id.symm)
    subst one
    refine ⟨?_, ?_, ?_⟩
    · intro silent
      rw [same] at silent
      simp only [Traffic.proceed, latest] at silent
      cases silent
    · intro _ e' found resolved
      have this_one : e' = e := by
        rw [same, ← about] at found
        simp only [Traffic.proceed, Store.lastEvent?, Store.eventsOf_withEvent_self,
          List.getLast?_append, List.getLast?_singleton, Option.some_or, Option.some.injEq] at found
        exact found.symm
      subst this_one
      have swipes := known.2.1.isSwipe resolved
      have holds := Stance.held_afterWriting a resolved
      have runs := turn.goes_on (Stance.not_settles_of_held holds)
      exact ⟨i, c, _, a, runs, holds, same.symm, swipes, wrote_proceed_self about p _⟩
    · intro h closes
      rw [Attempt.isPending, beq_iff_eq] at pending
      rw [pending] at closes
      cases closes
  · intro id
    by_cases same : e.attempt = id
    · rw [← same, Store.story_withEvent_self]
      apply (orderly.narrative e.attempt).append
      rw [about, ← Store.lastHappening?_eq]
      exact valid
    · rw [Store.story_withEvent_of_ne clock same]
      exact orderly.narrative id

theorem moves {a : Attempt} {state : State} (sound : t.Sound) (orderly : t.Orderly)
    (turn : t.Turn faulty i c (.moving a state) x (.afterMoving a state)
      (t.store.setState a.id state) p) :
    (t.proceed i x p (t.store.setState a.id state)).Orderly := by
  obtain ⟨_, latest⟩ := orderly.ready turn.runs
  obtain ⟨_, h, closes, _⟩ := sound.known turn.runs
  have lets_go : (Stance.afterMoving a state).held? = none := by cases state <;> rfl
  refine orderly.proceed turn (· = a.id) ?_ ?_ ?_ ?_ ?_ ?_ ?_ ?_ ?_
  · intro j d sd b runs takes same
    exact orderly.alone runs turn.runs takes rfl same
  · intro b takes
    cases takes
    rfl
  · intro b takes
    rw [lets_go] at takes
    cases takes
  · exact Stance.isReady_of_not_held lets_go
  · intro id other isOpen
    obtain ⟨b, mem, same, pending⟩ := isOpen
    refine ⟨b, Store.mem_attempts_setState.2 ⟨b, mem, ?_⟩, same, pending⟩
    rw [same, if_neg other]
  · intro id _
    rfl
  · intro b' mem' other
    obtain ⟨d, stored, rfl⟩ := Store.mem_attempts_setState.1 mem'
    by_cases here : d.id = a.id
    · simp only [here, if_true] at other
      exact absurd trivial other
    · simp only [here, if_false]
      exact stored
  · intro b' mem' here
    obtain ⟨d, stored, rfl⟩ := Store.mem_attempts_setState.1 mem'
    have moved : d.id = a.id := by
      split at here <;> exact here
    have settled : (t.store.setState a.id state).lastHappening? a.id = some h := by
      rw [Store.lastHappening?_congr (Store.log_setState a.id state), latest, closes]
    simp only [moved, if_true]
    refine ⟨?_, ?_, ?_⟩
    · intro silent
      simp only [Traffic.proceed, settled] at silent
      cases silent
    · intro pending
      simp only [Attempt.isPending, beq_iff_eq] at pending
      rw [pending] at closes
      cases closes
    · intro k closes'
      simp only [closes, Option.some.injEq] at closes'
      rw [← closes']
      exact settled
  · exact orderly.narrative

/-- An answer, a resumed showing or a showing to the second side is in order: the attempt waits for
the caller, who acts one request at a time. -/
theorem enters {a : Attempt} {h : Happening} {side : Role} (sound : t.Sound) (orderly : t.Orderly)
    (turn : t.Turn faulty i c st x (.writing a h) t.store p) (free : st.held? = none)
    (known : t.store.Knows a) (waits : (t.store.stage a.id).awaiting = some side)
    (own : a.person side = c.user) (valid : Happening.follows (t.store.lastHappening? a.id) h) :
    (t.proceed i x p t.store).Orderly := by
  refine orderly.still turn free rfl rfl ⟨orderly.isOpen_of_turn known waits, valid⟩ ?_
  intro j d sd b b' takes runs takes' same
  cases takes
  exact orderly.eq_of_turn sound turn.runs known waits own runs takes' same

theorem begun_of_turn {a : Attempt} {side : Role} (sound : t.Sound) (orderly : t.Orderly)
    (runs : t.Runs i c st) (free : st.held? = none) (known : t.store.Knows a)
    (waits : (t.store.stage a.id).awaiting = some side) (own : a.person side = c.user) :
    t.store.lastHappening? a.id ≠ none := by
  intro silent
  have ⟨b, mem, id, _⟩ := known
  rw [← id] at silent
  obtain ⟨j, d, e, ran, same⟩ := (orderly.tended b mem).begun silent
  have one := orderly.eq_of_turn sound runs known waits own ran rfl (same.trans id)
  subst one
  obtain ⟨_, led⟩ := ran.unique runs
  rw [← led] at free
  cases free

theorem passes (orderly : t.Orderly) (turn : t.Turn faulty i c st x st' s p)
    (free : st.held? = none) (free' : st'.held? = none) (attempts : s.attempts = t.store.attempts)
    (log : s.log = t.store.log) : (t.proceed i x p s).Orderly := by
  apply orderly.still turn free attempts log (Stance.isReady_of_not_held free')
  intro j d sd a b takes
  rw [free'] at takes
  cases takes

theorem resumes {a : Attempt} {rest : List Attempt} (sound : t.Sound) (orderly : t.Orderly)
    (turn : t.Turn faulty i c (.hanging a rest) x
      (.afterLooking a rest (t.store.lastHappening? a.id)) t.store p) :
    (t.proceed i x p t.store).Orderly := by
  obtain ⟨here, own⟩ := sound.known turn.runs a List.mem_cons_self
  have waits := t.store.awaiting_of_awaitingFirst a.id
  cases last : t.store.lastHappening? a.id with
  | none =>
    rw [last] at turn waits
    apply orderly.enters sound turn rfl here (waits rfl) own
    rw [last]
    rfl
  | some h =>
    rw [last] at turn waits
    cases h
    case created =>
      apply orderly.enters sound turn rfl here (waits rfl) own
      rw [last]
      rfl
    case shownToFirst => exact orderly.passes turn rfl rfl rfl rfl
    all_goals exact orderly.passes turn rfl (by cases rest <;> rfl) rfl rfl

theorem turn (sound : t.Sound) (orderly : t.Orderly) (turn : t.Turn False i c st x st' s p) :
    (t.proceed i x p s).Orderly := by
  have known := sound.known turn.runs
  cases acts : turn.acts with
  | looks idle quiet =>
    have free : st.held? = none := by cases st <;> first | rfl | cases idle
    exact orderly.passes turn free free rfl rfl
  | quits cause quiet =>
    have reading := cause.resolve_left id
    have free : st.held? = none := by cases st <;> first | rfl | cases reading
    exact orderly.passes turn free rfl rfl rfl
  | finds | courts | chats => exact orderly.passes turn rfl rfl rfl rfl
  | @lists as => exact orderly.passes turn rfl (by cases as <;> rfl) rfl rfl
  | opens clock first second pending free fresh quiet =>
    exact orderly.opens sound turn pending fresh
  | @answers a side verdict _ waits quiet =>
    obtain ⟨here, role, _⟩ := known
    have own := Role.person_of role
    have begun := orderly.begun_of_turn sound turn.runs rfl here waits own
    exact orderly.enters sound turn rfl here waits own (Happening.follows_swipe verdict begun waits)
  | @resumes a rest _ quiet => exact orderly.resumes sound turn
  | @shows a _ liked quiet =>
    obtain ⟨here, second, _⟩ := known
    have waits := Store.awaiting_of_firstLiked liked
    apply orderly.enters sound turn rfl here waits second
    rw [liked]
    rfl
  | writes clock about fresh => exact orderly.writes sound turn about
  | moves => exact orderly.moves sound turn
  | late absent quiet =>
    obtain ⟨⟨b, mem, same, pending⟩, _⟩ := orderly.ready turn.runs
    exact absurd pending (absent b mem same)
  | @tells a side rest => exact orderly.passes turn rfl (by cases rest <;> rfl) rfl rfl
  | misses fault => exact fault.elim

end Turning

theorem opening {s : Store} (fresh : s.IsFresh) : (opening s).Orderly := by
  have still {i : CallId} {c : Call} {st : Stance} : ¬(Traffic.opening s).Runs i c st :=
    not_runs_of_isQuiet rfl
  exact {
    single := fun runs => absurd runs still
    alone := fun runs => absurd runs still
    ready := fun runs => absurd runs still
    tended := by
      intro a mem
      simp [Traffic.opening, fresh.attempts] at mem
    narrative := by
      intro id step mem
      simp [Traffic.opening, Store.story, Store.eventsOf, fresh.log, Happening.review] at mem }

theorem launch {c : Call} (sound : t.Sound) (orderly : t.Orderly)
    (allowed : Rules.oneEach.mayStart t c) : (t.launch ruler c).Orderly where
  single runs runs' same := by
    rcases sound.abides.runs_launch runs with ran | ⟨rfl, rfl, _⟩ <;>
      rcases sound.abides.runs_launch runs' with ran' | ⟨rfl, rfl, _⟩
    · exact orderly.single ran ran' same
    · exact absurd same (allowed _ _ _ ran)
    · exact absurd same.symm (allowed _ _ _ ran')
    · rfl
  alone runs runs' takes takes' same := by
    rcases sound.abides.runs_launch runs with ran | ⟨_, _, rfl⟩
    · rcases sound.abides.runs_launch runs' with ran' | ⟨_, _, rfl⟩
      · exact orderly.alone ran ran' takes takes' same
      · cases takes'
    · cases takes
  ready runs := by
    rcases sound.abides.runs_launch runs with ran | ⟨_, _, rfl⟩
    · exact orderly.ready ran
    · trivial
  tended a mem :=
    (orderly.tended a mem).keep rfl rfl rfl (fun _ _ wrote => wrote)
      fun runs _ _ => runs.launch ruler c
  narrative := orderly.narrative

theorem step (sound : t.Sound) (orderly : t.Orderly) (step : Step ruler .oneEach t t') :
    t'.Orderly := by
  cases sound.abides.shift step with
  | starts c allowed => exact orderly.launch sound allowed
  | turns turn => exact orderly.turn sound turn
  | drops i allowed => exact allowed.elim

end Orderly

theorem Reaches.orderly {s : Store} (reaches : Reaches ruler .oneEach (opening s) t)
    (fresh : s.IsFresh) : t.Orderly :=
  (Sound.opening fresh).keeps reaches (Orderly.opening fresh) fun sound orderly step =>
    orderly.step sound step

end Traffic
end Matchmaking
