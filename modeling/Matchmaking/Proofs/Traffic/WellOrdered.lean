import Matchmaking.Proofs.Traffic.Orderly
import Matchmaking.Proofs.Traffic.Schedule
/-! Well-ordered logs: as long as no user has two requests in flight at once, every event follows
the one before it, no move comes too late, and no attempt is left half closed. -/
namespace Matchmaking
namespace Traffic

theorem Abides.runs_of_asks {t : Traffic} {i : CallId} {r : Request} (abides : t.Abides)
    (asks : t.Asks i r) : ∃ c st, t.Runs i c st ∧ r.IsOwed st := by
  obtain ⟨c, k, aloft⟩ := asks
  exact ⟨c, t.stance i c, ⟨⟨r, k, aloft⟩, rfl⟩, Call.isOwed_of_permits (abides.keeps aloft rfl).1⟩

structure WellOrdered (t : Traffic) : Prop where
  /-- Whatever a call is about to append follows the last event at that moment. -/
  appends : ∀ i id h, t.Asks i (.appendEvent id h) →
    Happening.follows (t.store.lastHappening? id) h = true
  narrative : ∀ id, Happening.IsNarrative (t.store.story id)
  /-- A move is never refused. -/
  finishes : ∀ i id state, t.Asks i (.finishAttempt id state) →
    ∀ reply s, t.store.Serves (.finishAttempt id state) reply s → reply = .ok ()
  matched : ∀ a ∈ t.store.attempts, a.state = .matched →
    t.store.lastHappening? a.id = some .paired
  mismatched : ∀ a ∈ t.store.attempts, a.state = .mismatched →
    t.store.lastHappening? a.id = some .failed
  /-- A pending attempt is resolved only while the swipe that resolved it is in flight. -/
  pursued : ∀ a ∈ t.store.attempts, a.isPending → ∀ e, t.store.lastEvent? a.id = some e →
    e.happening ∈ [.firstDisliked, .secondLiked, .secondDisliked, .paired, .failed] →
      ∃ i c st, c.isSwipe ∧ t.Runs i c st ∧ t.Wrote i e

/-- When each user makes one call at a time, the logs are well ordered, however calls of different
users overlap. -/
theorem well_ordered {ruler : Geo.Ruler} {s : Store} {t : Traffic} (fresh : s.IsFresh)
    (reaches : Reaches ruler .oneEach (opening s) t) : t.WellOrdered := by
  have sound := Reaches.sound reaches fresh
  have orderly := reaches.orderly fresh
  exact {
    appends := by
      intro i id h asks
      obtain ⟨c, st, runs, a, rfl, rfl⟩ := sound.abides.runs_of_asks asks
      exact (orderly.ready runs).2
    narrative := orderly.narrative
    finishes := by
      intro i id state asks reply s' served
      obtain ⟨c, st, runs, a, rfl, rfl⟩ := sound.abides.runs_of_asks asks
      obtain ⟨⟨b, mem, same, pending⟩, _⟩ := orderly.ready runs
      rcases served.finish with ⟨_, told, _⟩ | ⟨absent, _, _⟩
      · exact told
      · exact absurd pending (absent b mem same)
    matched := fun a mem state => (orderly.tended a mem).closed .paired (by rw [state]; rfl)
    mismatched := fun a mem state => (orderly.tended a mem).closed .failed (by rw [state]; rfl)
    pursued := by
      intro a mem pending e found resolving
      have resolved : Stage.after (some e.happening) = .resolved := by
        generalize e.happening = h at resolving
        cases h <;> first | rfl | simp at resolving
      obtain ⟨i, c, st, _, runs, _, _, swipes, wrote⟩ :=
        (orderly.tended a mem).pursued pending e found resolved
      exact ⟨i, c, st, swipes, runs, wrote⟩ }

/-- Two people whose requests overlap: the second one asks for a partner while the first one's like
is on its way, and the first one swipes again while the second one's like closes the attempt. -/
def overlap : Traffic :=
  (Scene.village (fun t c => t.isIdle c.user) false).perform (opening (Store.village [1, 2])) <|
    [.start (.next 0 ⟨1⟩)] ++ turns 0 ++
      [.start (.swipe ⟨1⟩ 2 .like), .start (.next 0 ⟨2⟩)] ++
      (List.replicate 8 [.turn 1, .turn 2]).flatten ++ turns 2 ++
      [.start (.swipe ⟨2⟩ 1 .like), .start (.swipe ⟨1⟩ 2 .dislike)] ++
      List.replicate 4 (.turn 3) ++ turns 4

theorem well_ordered_overlap :
    overlap.store.attempts.map Attempt.state = [.pending] ∧
      overlap.store.story 1 =
        [.created, .shownToFirst, .firstLiked, .shownToSecond, .secondLiked, .paired] ∧
      overlap.isQuiet = false ∧ overlap.WellOrdered := by
  refine ⟨by decide +kernel, by decide +kernel, by decide +kernel, ?_⟩
  have reaches := Scene.reaches_perform (t := opening (Store.village [1, 2]))
    (Scene.village (fun t c => t.isIdle c.user) false) (Store.isNumbered_village [1, 2])
  refine well_ordered (Store.isFresh_village [1, 2]) ((reaches _).mono ?_ ?_)
  · intro t c idle i d st runs
    exact runs.user_ne idle
  · intro failing
    cases failing

end Traffic
end Matchmaking
