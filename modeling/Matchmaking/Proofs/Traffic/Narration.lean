import Matchmaking.Proofs.Engine.Sequel
import Matchmaking.Proofs.Traffic.WellOrdered
/-! One call at a time, any of which may be cut off. What a cut off call has left behind is taken up
in its order, but for one thing: of an attempt that was opened and never told of, an answer of the
first person is written as it is, without the beginning. -/
namespace Matchmaking
namespace Happening

/-- The story is a narrative, or lacks only its beginning. -/
def IsNarrated (story : List Happening) : Prop :=
  IsNarrative story ∨ IsNarrative (.created :: story)

theorem IsNarrated.append {story : List Happening} {h : Happening} (narrated : IsNarrated story)
    (goesOn : GoesOn story.getLast? h) : IsNarrated (story ++ [h]) := by
  rcases goesOn with valid | ⟨untold, verdict, rfl⟩
  · rcases List.eq_nil_or_concat story with rfl | ⟨front, last, rfl⟩
    · exact Or.inl (IsNarrative.append (by simp [IsNarrative, review]) valid)
    · refine narrated.imp (fun whole => whole.append valid) fun lacking => ?_
      rw [List.concat_eq_append] at valid lacking ⊢
      rw [← List.cons_append]
      apply lacking.append
      rw [List.getLast?_append] at valid
      rw [← List.cons_append, List.getLast?_append]
      exact valid
  · rw [List.getLast?_eq_none_iff.1 untold]
    right
    intro step mem
    cases verdict <;> revert step <;> decide

end Happening

namespace Traffic

/-- At most one call is in flight, and what it is about to write goes on from the last event. -/
structure Solitary (t : Traffic) : Prop where
  single : ∀ {i j c d st st'}, t.Runs i c st → t.Runs j d st' → i = j
  due : ∀ {i c a h}, t.Runs i c (.writing a h) →
    Happening.GoesOn (t.store.lastHappening? a.id) h
  narrated : ∀ id, Happening.IsNarrated (t.store.story id)

variable {ruler : Geo.Ruler} {t t' : Traffic}

namespace Solitary

theorem opening {s : Store} (fresh : s.IsFresh) : (opening s).Solitary where
  single runs := absurd runs (not_runs_of_isQuiet rfl)
  due runs := absurd runs (not_runs_of_isQuiet rfl)
  narrated id := by
    left
    simp [Traffic.opening, Store.story, Store.eventsOf, fresh.log, Happening.IsNarrative,
      Happening.review]

theorem narrated_proceed {faulty : Prop} {i : CallId} {c : Call} {st st' : Stance} {x : Exchange}
    {s : Store} {p : Program Call.Result} (solitary : t.Solitary)
    (turn : t.Turn faulty i c st x st' s p) (id : AttemptId) :
    Happening.IsNarrated (s.story id) := by
  rcases turn.acts.story_eq id with same | ⟨a, h, took, here, longer⟩
  · rw [same]
    exact solitary.narrated id
  · have runs := turn.runs
    rw [took] at runs
    have goesOn := solitary.due runs
    rw [here, Store.lastHappening?_eq] at goesOn
    rw [longer]
    exact (solitary.narrated id).append goesOn

theorem step (solitary : t.Solitary) (sound : t.Sound) (step : Step ruler .sequential t t') :
    t'.Solitary := by
  cases sound.abides.shift step with
  | starts c quiet =>
    have alone {i d st} (runs : (t.launch ruler c).Runs i d st) :
        i = t.flights.length ∧ st = .free := by
      rcases sound.abides.runs_launch runs with ran | ⟨here, _, free⟩
      · exact absurd ran (not_runs_of_isQuiet quiet)
      · exact ⟨here, free⟩
    exact {
      single := fun runs runs' => (alone runs).1.trans (alone runs').1.symm
      due := fun runs => nomatch (alone runs).2
      narrated := solitary.narrated }
  | @turns i c st st' x s p turn =>
    have alone {j d sd} (runs : (t.proceed i x p s).Runs j d sd) : j = i ∧ sd = st' := by
      rcases turn.before runs with ⟨here, _, led⟩ | ⟨other, ran⟩
      · exact ⟨here, led⟩
      · exact absurd (solitary.single ran turn.runs) other
    exact {
      single := fun runs runs' => (alone runs).1.trans (alone runs').1.symm
      due := fun runs => turn.acts.goesOn_of_writing sound.exists_of_logged (alone runs).2.symm
      narrated := solitary.narrated_proceed turn }
  | drops i _ =>
    exact {
      single := fun runs runs' => solitary.single (runs_drop runs).2 (runs_drop runs').2
      due := fun runs => solitary.due (runs_drop runs).2
      narrated := solitary.narrated }

end Solitary

theorem Reaches.solitary {s : Store} (reaches : Reaches ruler .sequential (opening s) t)
    (fresh : s.IsFresh) : t.Solitary :=
  (Sound.opening fresh).keeps reaches (Solitary.opening fresh) fun sound solitary step =>
    solitary.step sound step

structure Narrated (t : Traffic) : Prop where
  /-- Whatever a call is about to append follows the last event at that moment, unless it is an
  answer of the first person, and nothing has been told of the attempt. -/
  appends : ∀ i id h, t.Asks i (.appendEvent id h) →
    (Happening.follows (t.store.lastHappening? id) h = true ↔
      ¬(t.store.lastHappening? id = none ∧ ∃ verdict, h = .swipe .first verdict))
  narrated : ∀ id, Happening.IsNarrated (t.store.story id)

/-- One call at a time, each of which may be cut off, writes stories that lack nothing but their
beginning. -/
theorem narrated_of_sequential {s : Store} (fresh : s.IsFresh)
    (reaches : Reaches ruler .sequential (opening s) t) : t.Narrated := by
  have solitary := reaches.solitary fresh
  have sound := Reaches.sound reaches fresh
  constructor
  · intro i id h asks
    obtain ⟨c, st, runs, a, rfl, rfl⟩ := sound.abides.runs_of_asks asks
    exact (solitary.due runs).follows_iff
  · exact solitary.narrated

def request? (t : Traffic) (i : CallId) : Option Request :=
  match t.flights[i]? with
  | some ⟨_, .call r _⟩ => some r
  | _ => none

theorem asks_of_request? {i : CallId} {r : Request} (found : t.request? i = some r) :
    t.Asks i r := by
  unfold request? at found
  split at found
  · next c r' k aloft =>
    cases found
    exact ⟨c, k, aloft⟩
  · cases found

/-- A call cut off once it has opened an attempt, and an answer to that which is about to be
written. -/
def headless : Traffic :=
  (Scene.village (fun t _ => t.isQuiet) true).perform (opening (Store.village [1, 2])) <|
    [.start (.next 0 ⟨1⟩)] ++ List.replicate 11 (.turn 0) ++ [.drop 0] ++
      [.start (.swipe ⟨1⟩ 2 .like), .turn 1, .turn 1]

theorem reaches_headless :
    Reaches (fun _ _ => some 0) .sequential (opening (Store.village [1, 2])) headless := by
  have reaches := Scene.reaches_perform (t := opening (Store.village [1, 2]))
    (Scene.village (fun t _ => t.isQuiet) true) (Store.isNumbered_village [1, 2])
  exact (reaches _).mono (fun _ _ quiet => quiet) fun _ => trivial

theorem narrated_of_sequential_headless :
    headless.request? 1 = some (.appendEvent 1 .firstLiked) ∧ headless.store.story 1 = [] ∧
      headless.Narrated :=
  ⟨by decide +kernel, by decide +kernel,
    narrated_of_sequential (Store.isFresh_village [1, 2]) reaches_headless⟩

/-- An answer may be written of an attempt with an empty log. -/
theorem answer_of_untold :
    ¬∀ (ruler : Geo.Ruler) (s : Store) (t : Traffic), s.IsFresh →
      Reaches ruler .sequential (opening s) t → ∀ i id h, t.Asks i (.appendEvent id h) →
        Happening.follows (t.store.lastHappening? id) h = true := by
  intro follows
  have asked : headless.request? 1 = some (.appendEvent 1 .firstLiked) := by decide +kernel
  have valid := follows _ _ _ (Store.isFresh_village [1, 2]) reaches_headless 1 1 .firstLiked
    (asks_of_request? asked)
  have untold : headless.store.lastHappening? 1 = none := by decide +kernel
  rw [untold] at valid
  cases valid

end Traffic
end Matchmaking
