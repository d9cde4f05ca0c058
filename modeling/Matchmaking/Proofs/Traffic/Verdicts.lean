import Matchmaking.Proofs.Engine.Sequel
import Matchmaking.Proofs.Traffic.Agreement
/-! How far a recorded verdict stands. The stage of an attempt is that of its last event, so an
event that comes late may lead it back; but only a call that was under way when the verdict was
recorded can write one. -/
namespace Matchmaking

namespace Traffic

variable {ruler : Geo.Ruler} {rules : Rules} {t t' : Traffic}

/-- The call had been answered before another one appended that event. -/
def Precedes (t : Traffic) (j : CallId) (e : Event) : Prop :=
  ∃ k before after, k ≠ j ∧ Busy before j ∧
    t.history = before ++ (k, ⟨.appendEvent e.attempt e.happening, .ok e⟩) :: after

/-- The call had been answered before another one appended the event `e`, and has appended `d` after
that. -/
def Belated (t : Traffic) (j : CallId) (d e : Event) : Prop :=
  ∃ k before after, k ≠ j ∧ Busy before j ∧
    t.history = before ++ (k, ⟨.appendEvent e.attempt e.happening, .ok e⟩) :: after ∧
    (j, ⟨.appendEvent d.attempt d.happening, .ok d⟩) ∈ after

theorem Belated.wrote {j : CallId} {d e : Event} (belated : t.Belated j d e) : t.Wrote j d := by
  obtain ⟨k, before, after, _, _, split, mem⟩ := belated
  rw [Wrote, split]
  exact List.mem_append_right _ (List.mem_cons_of_mem _ mem)

theorem Precedes.belated {j : CallId} {e d : Event} (precedes : t.Precedes j e)
    {t' : Traffic} (history : t'.history =
      t.history ++ [(j, ⟨.appendEvent d.attempt d.happening, .ok d⟩)]) : t'.Belated j d e := by
  obtain ⟨k, before, after, other, busy, split⟩ := precedes
  refine ⟨k, before, after ++ [_], other, busy, ?_,
    List.mem_append_right _ (List.mem_singleton_self _)⟩
  rw [history, split, List.append_assoc, List.cons_append]

theorem Precedes.append {j : CallId} {e : Event} (precedes : t.Precedes j e)
    {more : List (CallId × Exchange)} (history : t'.history = t.history ++ more) :
    t'.Precedes j e := by
  obtain ⟨k, before, after, other, busy, split⟩ := precedes
  refine ⟨k, before, after ++ more, other, busy, ?_⟩
  rw [history, split, List.append_assoc, List.cons_append]

theorem Belated.append {j : CallId} {d e : Event} (belated : t.Belated j d e)
    {more : List (CallId × Exchange)} (history : t'.history = t.history ++ more) :
    t'.Belated j d e := by
  obtain ⟨k, before, after, other, busy, split, mem⟩ := belated
  refine ⟨k, before, after ++ more, other, busy, ?_, List.mem_append_left _ mem⟩
  rw [history, split, List.append_assoc, List.cons_append]

/-- Among these later events there is one that leads behind `e` and came late. -/
def LedBack (t : Traffic) (e : Event) (back : List Event) : Prop :=
  ∃ d ∈ back, d.happening.rank < e.happening.rank ∧ ∃ j, t.Belated j d e

theorem LedBack.append {e : Event} {back : List Event} (ledBack : t.LedBack e back)
    {more : List (CallId × Exchange)} (history : t'.history = t.history ++ more) :
    t'.LedBack e back := by
  obtain ⟨d, mem, behind, j, belated⟩ := ledBack
  exact ⟨d, mem, behind, j, belated.append history⟩

theorem LedBack.longer {e : Event} {back : List Event} (ledBack : t.LedBack e back) (d : Event) :
    t.LedBack e (back ++ [d]) := by
  obtain ⟨d', mem, behind, late⟩ := ledBack
  exact ⟨d', List.mem_append_left _ mem, behind, late⟩

/-- No attempt goes back but by a late event, of a call that is known to be late before it writes
that. -/
structure Steady (t : Traffic) : Prop where
  past : ∀ {id front e back}, t.store.eventsOf id = front ++ e :: back →
    t.LedBack e back ∨ ∀ d ∈ back, e.happening.rank ≤ d.happening.rank
  due : ∀ {j c a h front e back}, t.Runs j c (.writing a h) →
    t.store.eventsOf a.id = front ++ e :: back → h.rank < e.happening.rank →
      t.LedBack e back ∨ t.Precedes j e

/-- An attempt whose stage lies behind one of its events has been led back. -/
theorem LedBack.of_stage {id : AttemptId} {front back : List Event} {e : Event}
    (past : t.LedBack e back ∨ ∀ d ∈ back, e.happening.rank ≤ d.happening.rank)
    (split : t.store.eventsOf id = front ++ e :: back)
    (behind : (t.store.stage id).rank < e.happening.rank) : t.LedBack e back := by
  refine past.resolve_right ?_
  intro onward
  obtain ⟨l, latest⟩ : ∃ l, (e :: back).getLast? = some l :=
    ⟨_, List.getLast?_eq_some_getLast (List.cons_ne_nil e back)⟩
  have stage : t.store.stage id = Stage.after (some l.happening) := by
    rw [Store.stage, Store.lastHappening?, Store.lastEvent?, split, List.getLast?_append, latest]
    rfl
  have later : e.happening.rank ≤ l.happening.rank := by
    rcases List.mem_cons.1 (List.mem_of_getLast? latest) with rfl | mem
    · exact Nat.le_refl _
    · exact onward l mem
  rw [stage] at behind
  exact absurd later (Nat.not_le.2 behind)

namespace Steady

section Turning

variable {faulty : Prop} {i : CallId} {c : Call} {st st' : Stance} {x : Exchange} {s : Store}
  {p : Program Call.Result}

theorem past_proceed (steady : t.Steady) (turn : t.Turn faulty i c st x st' s p)
    {id : AttemptId} {front back : List Event} {e : Event}
    (split : s.eventsOf id = front ++ e :: back) :
    (t.proceed i x p s).LedBack e back ∨ ∀ d ∈ back, e.happening.rank ≤ d.happening.rank := by
  have history : (t.proceed i x p s).history = t.history ++ [(i, x)] := rfl
  rcases turn.acts.eventsOf_eq id with same | ⟨a, d, took, _, asked, here, about, longer⟩
  · rw [same] at split
    exact (steady.past split).imp_left fun ledBack => ledBack.append history
  · rw [longer] at split
    rcases split_append_singleton split with ⟨_, _, rfl⟩ | ⟨back, rfl, before⟩
    · exact Or.inr (by simp)
    · rcases steady.past before with ledBack | onward
      · exact Or.inl ((ledBack.append history).longer d)
      by_cases behind : d.happening.rank < e.happening.rank
      · left
        have runs := turn.runs
        rw [took] at runs
        rw [← here] at before
        rcases steady.due runs before behind with ledBack | precedes
        · exact (ledBack.append history).longer d
        · refine ⟨d, by simp, behind, i, precedes.belated ?_⟩
          rw [history, asked, here, about]
      · right
        intro d' mem
        rcases List.mem_append.1 mem with mem | mem
        · exact onward d' mem
        · rw [List.mem_singleton.1 mem]
          exact Nat.not_lt.1 behind

theorem due_proceed (steady : t.Steady) (sound : t.Sound)
    (turn : t.Turn faulty i c st x st' s p) {j : CallId} {d : Call} {a : Attempt} {h : Happening}
    {front back : List Event} {e : Event} (runs : (t.proceed i x p s).Runs j d (.writing a h))
    (split : s.eventsOf a.id = front ++ e :: back) (further : h.rank < e.happening.rank) :
    (t.proceed i x p s).LedBack e back ∨ (t.proceed i x p s).Precedes j e := by
  have history : (t.proceed i x p s).history = t.history ++ [(i, x)] := rfl
  rcases turn.before runs with ⟨rfl, rfl, led⟩ | ⟨other, ran⟩
  · left
    refine .of_stage (steady.past_proceed turn split) split (Nat.lt_of_le_of_lt ?_ further)
    exact (turn.acts.goesOn_of_writing sound.exists_of_logged led.symm).rank_le
  · rcases turn.acts.eventsOf_eq a.id with same | ⟨b, k, _, _, asked, here, about, longer⟩
    · rw [same] at split
      exact (steady.due ran split further).imp (fun ledBack => ledBack.append history)
        fun precedes => precedes.append history
    · rw [longer] at split
      rcases split_append_singleton split with ⟨_, rfl, _⟩ | ⟨back, rfl, before⟩
      · right
        refine ⟨i, t.history, [], Ne.symm other, ran.busy (List.mem_singleton_self a), ?_⟩
        rw [history, asked, here, about]
      · exact (steady.due ran before further).imp
          (fun ledBack => (ledBack.append history).longer k)
          fun precedes => precedes.append history

end Turning

theorem keep (steady : t.Steady) (store : t'.store = t.store) (history : t'.history = t.history)
    (runs : ∀ {i c st}, t'.Runs i c st → t.Runs i c st ∨ st = .free) : t'.Steady := by
  have same : t'.history = t.history ++ [] := by rw [history, List.append_nil]
  constructor
  · intro id front e back split
    rw [store] at split
    exact (steady.past split).imp_left fun ledBack => ledBack.append same
  · intro j c a h front e back ran split further
    rw [store] at split
    rcases runs ran with ran | led
    · exact (steady.due ran split further).imp (fun ledBack => ledBack.append same)
        fun precedes => precedes.append same
    · cases led

theorem opening {s : Store} (fresh : s.IsFresh) : (opening s).Steady where
  past split := by simp [Traffic.opening, Store.eventsOf, fresh.log] at split
  due runs := absurd runs (not_runs_of_isQuiet rfl)

theorem step (steady : t.Steady) (sound : t.Sound) (step : Step ruler rules t t') : t'.Steady := by
  cases sound.abides.shift step with
  | starts c _ =>
    refine steady.keep rfl rfl ?_
    intro i d st runs
    rcases sound.abides.runs_launch runs with ran | ⟨_, _, led⟩
    · exact Or.inl ran
    · exact Or.inr led
  | turns turn => exact ⟨steady.past_proceed turn, steady.due_proceed sound turn⟩
  | drops i _ =>
    refine steady.keep rfl rfl ?_
    intro j d st runs
    exact Or.inl (runs_drop runs).2

end Steady

theorem Reaches.steady {s : Store} (reaches : Reaches ruler rules (opening s) t)
    (fresh : s.IsFresh) : t.Steady :=
  (Sound.opening fresh).keeps reaches (Steady.opening fresh) fun sound steady step =>
    steady.step sound step

def IsAuthored (t : Traffic) : Prop := ∀ i e, t.Wrote i e → ∃ c a, t.Signed e i c a

theorem Sound.isAuthored_proceed {faulty : Prop} {i : CallId} {c : Call} {st st' : Stance}
    {x : Exchange} {s : Store} {p : Program Call.Result} (sound : t.Sound)
    (authored : t.IsAuthored) (turn : t.Turn faulty i c st x st' s p) :
    (t.proceed i x p s).IsAuthored := by
  intro j e wrote
  rcases mem_history_proceed.1 wrote with old | now
  · obtain ⟨d, a, signed⟩ := authored j e old
    obtain ⟨b, signed⟩ := signed.proceed (sound.grows turn) i x p
    exact ⟨d, b, signed⟩
  · obtain ⟨rfl, asked⟩ := Prod.mk.inj now
    obtain ⟨a, took, about⟩ := turn.acts.writing_of_append asked.symm
    have runs := turn.runs
    rw [took] at runs
    obtain ⟨⟨b, stored, id, first, second⟩, may, _⟩ := sound.known runs
    obtain ⟨b', stored', id', first', second', _⟩ := (sound.grows turn).attempts b stored
    exact ⟨c, b', turn.runs.made.proceed j x p s, wrote, stored', id'.trans (id.trans about),
      may.congr (first'.trans first) (second'.trans second)⟩

theorem Reaches.isAuthored {s : Store} (reaches : Reaches ruler rules (opening s) t)
    (fresh : s.IsFresh) : t.IsAuthored := by
  refine (Sound.opening fresh).keeps (P := IsAuthored) reaches ?_ ?_
  · intro i e wrote
    simp [Wrote, opening] at wrote
  · intro t t' sound authored step
    cases sound.abides.shift step with
    | starts c _ =>
      intro i e wrote
      obtain ⟨d, a, signed⟩ := authored i e wrote
      exact ⟨d, a, signed.made.launch ruler c, signed.wrote, signed.mem, signed.about, signed.may⟩
    | turns turn => exact sound.isAuthored_proceed authored turn
    | drops j _ =>
      intro i e wrote
      obtain ⟨d, a, signed⟩ := authored i e wrote
      exact ⟨d, a, signed.made.drop j, signed.wrote, signed.mem, signed.about, signed.may⟩

/-- What may bring an attempt back behind an event of it: a later event `d` that leads there, which
is of the person on that side and was appended by a call that was under way before. -/
def LedBackBy (t : Traffic) (a : Attempt) (e d : Event) : Prop :=
  ∃ j c, t.Made j c ∧ c.user = a.person d.happening.side ∧ t.Belated j d e

structure VerdictsStand (t : Traffic) : Prop where
  /-- After a like of the first person the attempt waits for them again only through a late event
  of a showing to them. -/
  liked : ∀ a ∈ t.store.attempts, ∀ front e back, t.store.eventsOf a.id = front ++ e :: back →
    e.happening = .firstLiked → t.store.stage a.id = .awaitingFirst →
      ∃ d ∈ back, (d.happening = .created ∨ d.happening = .shownToFirst) ∧ t.LedBackBy a e d
  /-- After any other answer the attempt waits for a side only through a late event that does not
  resolve it. -/
  answered : ∀ a ∈ t.store.attempts, ∀ front e back, t.store.eventsOf a.id = front ++ e :: back →
    e.happening ∈ [.firstDisliked, .secondLiked, .secondDisliked] →
      t.store.stage a.id ≠ .resolved →
        ∃ d ∈ back, Stage.after (some d.happening) ≠ .resolved ∧ t.LedBackBy a e d

/-- A recorded verdict stands unless a call that was under way when it was recorded appends an event
after it that leads back. -/
theorem verdict_stands {s : Store} (fresh : s.IsFresh)
    (reaches : Reaches ruler rules (opening s) t) : t.VerdictsStand := by
  have sound := Reaches.sound reaches fresh
  have back_by {a : Attempt} (stored : a ∈ t.store.attempts) {front back : List Event} {e : Event}
      (split : t.store.eventsOf a.id = front ++ e :: back)
      (behind : (t.store.stage a.id).rank < e.happening.rank) :
      ∃ d ∈ back, d.happening.rank < e.happening.rank ∧ t.LedBackBy a e d := by
    have steady := Reaches.steady reaches fresh
    obtain ⟨d, mem, lower, j, belated⟩ := LedBack.of_stage (steady.past split) split behind
    obtain ⟨c, b, signed⟩ := Reaches.isAuthored reaches fresh j d belated.wrote
    have logged : d ∈ t.store.eventsOf a.id := by
      rw [split]
      exact List.mem_append_right _ (List.mem_cons_of_mem e mem)
    have about : b.id = a.id := signed.about.trans (t.store.mem_eventsOf.1 logged).2
    have same : b = a := sound.register.unique b signed.mem a stored about
    have open_ : d.happening.isTerminal = false := Happening.isTerminal_of_rank_lt lower
    have person := signed.may.side open_
    rw [same] at person
    exact ⟨d, mem, lower, j, c, signed.made, person.symm, belated⟩
  constructor
  · intro a stored front e back split liked waits
    have behind : (t.store.stage a.id).rank < e.happening.rank := by
      rw [liked, waits]
      decide
    obtain ⟨d, mem, lower, led⟩ := back_by stored split behind
    refine ⟨d, mem, ?_, led⟩
    rw [liked] at lower
    generalize d.happening = h at lower
    cases h <;> first | exact Or.inl rfl | exact Or.inr rfl | exact absurd lower (by decide)
  · intro a stored front e back split answer waits
    have top : e.happening.rank = 2 := by
      generalize e.happening = h at answer
      cases h <;> first | rfl | exact absurd answer (by decide)
    have behind : (t.store.stage a.id).rank < e.happening.rank := by
      rw [top]
      cases stage : t.store.stage a.id <;> first | decide | exact absurd stage waits
    obtain ⟨d, mem, lower, led⟩ := back_by stored split behind
    refine ⟨d, mem, ?_, led⟩
    intro resolved
    rw [top, Happening.rank, resolved] at lower
    exact absurd lower (by decide)

/-- A like of user 1 in an attempt whose `shownToFirst` the opening call is still to write. -/
def likeBeforeShown : Traffic :=
  (Scene.village (fun _ _ => true) false).perform (opening (Store.village [1, 2])) <|
    [.start (.next 0 ⟨1⟩)] ++ List.replicate 12 (.turn 0) ++ [.start (.swipe ⟨1⟩ 2 .like)] ++
      turns 1 ++ turns 0

theorem reaches_likeBeforeShown :
    Reaches (fun _ _ => some 0) .unfailing (opening (Store.village [1, 2])) likeBeforeShown := by
  have reaches := Scene.reaches_perform (t := opening (Store.village [1, 2]))
    (Scene.village (fun _ _ => true) false) (Store.isNumbered_village [1, 2])
  refine (reaches _).mono (fun _ _ _ => trivial) ?_
  intro failing
  cases failing

theorem verdict_stands_likeBeforeShown :
    likeBeforeShown.store.story 1 = [.created, .firstLiked, .shownToFirst] ∧
      likeBeforeShown.isQuiet ∧
      likeBeforeShown.VerdictsStand :=
  ⟨by decide +kernel, by decide +kernel,
    verdict_stands (Store.isFresh_village [1, 2]) reaches_likeBeforeShown⟩

/-- A recorded like may be followed by another turn of the side that gave it. -/
theorem verdict_undone :
    ¬∀ (ruler : Geo.Ruler) (s : Store) (t : Traffic), s.IsFresh →
      Reaches ruler .unfailing (opening s) t → ∀ a ∈ t.store.attempts,
        (.firstLiked ∈ t.store.story a.id → t.store.stage a.id ≠ .awaitingFirst) ∧
        ∀ h ∈ [Happening.firstDisliked, .secondLiked, .secondDisliked], h ∈ t.store.story a.id →
          t.store.stage a.id = .resolved := by
  intro stands
  have told := stands _ _ _ (Store.isFresh_village [1, 2]) reaches_likeBeforeShown
  have found : ∃ a ∈ likeBeforeShown.store.attempts,
      .firstLiked ∈ likeBeforeShown.store.story a.id ∧
      likeBeforeShown.store.stage a.id = .awaitingFirst := by
    decide +kernel
  obtain ⟨a, mem, liked, waits⟩ := found
  exact (told a mem).1 liked waits

end Traffic
end Matchmaking
