import Matchmaking.Proofs.Engine.Selection
import Matchmaking.Proofs.Traffic.Schedule
import Matchmaking.Rehearsal.Stage
/-! The choice of a candidate among collaborators that tell what is in the store: the result for
every content of it, every list of valid users and every answer of chance, and how often chance is
asked. A stage that lays no traps has such collaborators. -/
namespace Matchmaking

/-- The choice of a candidate by a truthful keeper that tells the latest attempts as the store has
them. Of the eligible among those listed, chance picks among those who are new to the person; it is
asked once, and only then. Without any of these, the candidate whose mismatch is the longest ago is
chosen, and without any mismatch the one whose match is. There is no candidate only when none is
eligible. -/
theorem Keeper.Runs.chooses {σ : Type} {keeper : Keeper σ} {store : σ → Store} {x x' : σ}
    {ruler : Geo.Ruler} {person : Person} {result : Except MatchError (Option UserId)}
    (truthful : keeper.IsTruthful store)
    (latest : ∀ {v found}, keeper x (.latestOfPair person.profile.userId v) (.ok found) x →
      found = (store x).latestOfPair? person.profile.userId v)
    (runs : keeper.Runs x (Engine.chooseCandidate ruler person) result x') :
    ∃ ids chosen, keeper x .validUsers (.ok ids) x ∧ result = .ok chosen ∧
      let eligible := ids.filter ((store x).isEligible ruler person)
      let newcomers := (store x).newcomers person eligible
      (chosen = none ↔ eligible = []) ∧
      (newcomers ≠ [] → ∃ index, keeper x (.index newcomers.length) index x' ∧
        chosen = newcomers[min index (newcomers.length - 1)]?) ∧
      (newcomers = [] → x' = x ∧ ∀ v, chosen = some v ↔
        (store x).IsLongestAgo person eligible .mismatched v ∨
          (∀ w ∈ eligible, ∀ a ∈ (store x).latestOfPair? person.profile.userId w,
            a.state ≠ .mismatched) ∧ (store x).IsLongestAgo person eligible .matched v) := by
  obtain ⟨ids, fs, index, listed, files, told, chance⟩ := runs.chooseCandidate truthful
  refine ⟨ids, (Buckets.file {} fs).answer index, listed, told, ?_⟩
  intro eligible newcomers
  have filed : fs = (store x).filings person eligible := files.eq_filings latest
  have new : Buckets.strangers fs = newcomers := by rw [filed, Store.strangers_filings]
  refine ⟨?_, ?_, ?_⟩
  · have admitted := files.admits truthful
    have people : fs.map Prod.fst = eligible := files.filed
    have nobody : fs = [] ↔ eligible = [] := by rw [← people, List.map_eq_nil_iff]
    rw [Buckets.answer_eq_none, ← nobody, List.eq_nil_iff_forall_not_mem]
    constructor
    · intro refused f mem
      exact refused f mem (admitted f mem)
    · intro empty f mem
      exact absurd mem (empty f)
  · intro somebody
    rw [← new] at somebody
    rw [if_neg somebody, new] at chance
    rw [Buckets.answer_of_strangers _ somebody, new]
    exact ⟨index, chance, rfl⟩
  · intro nobody
    rw [← new] at nobody
    rw [if_pos nobody] at chance
    refine ⟨chance, fun v => ?_⟩
    rw [Buckets.answer_of_known index nobody, filed, Store.isLongestAgo_filings,
      Store.isLongestAgo_filings, Store.none_mem_filings]

namespace Rehearsal
namespace Stage

open Engine

variable {s s' : Stage}

structure IsClear (s : Stage) : Prop where
  traps : s.traps = []
  misrouted : s.misrouted = none

def keeper : Keeper Stage := fun s r reply s' => s.IsClear ∧ s.answer r = (some reply, s')

def listed (s : Stage) : List UserId := s.listing.getD s.store.validUsers

namespace IsClear

variable (clear : s.IsClear)

include clear

theorem answer (r : Request) : s.answer r = (some (s.serve r).1, (s.serve r).2) := by
  have unsprung (call : Call) : s.spring call = ([], s) := by
    have same : { s with traps := [] } = s := by rw [← clear.traps]
    simp [spring, clear.traps, same]
  unfold Stage.answer
  cases Call.of? r <;> simp [unsprung, arrangeAll]

theorem serve_of_inquiry {r : Request} (inquiry : r.isInquiry) :
    s.serve r = ((s.store.serve s.surroundings r).1, s) := by
  cases r with
  | profile v => rfl
  | preferences v => rfl
  | pendingOfPair u v =>
    unfold Stage.serve
    rw [clear.misrouted]
    rfl
  | latestOfPair u v => rfl
  | _ => cases inquiry

theorem serve (r : Request) : (s.serve r).2.IsClear := by
  have fromStore : (s.serveFromStore r).2.traps = [] ∧
      (s.serveFromStore r).2.misrouted = none := by
    have noted (s : Stage) (reply : r.Reply) :
        (s.note r reply).traps = s.traps ∧ (s.note r reply).misrouted = s.misrouted := by
      unfold note
      split <;> exact ⟨rfl, rfl⟩
    obtain ⟨traps, misrouted⟩ := noted (s.withStore (s.store.serve s.surroundings r).2)
      (s.store.serve s.surroundings r).1
    exact ⟨traps.trans clear.traps, misrouted.trans clear.misrouted⟩
  unfold Stage.serve
  split
  · split
    · exact clear
    · exact ⟨fromStore.1, fromStore.2⟩
  · split
    · exact clear
    · exact ⟨fromStore.1, fromStore.2⟩
  · exact ⟨fromStore.1, fromStore.2⟩

theorem play {α : Type} (p : Program α) :
    ∃ result s', s.play p = (some result, s') ∧ keeper.Runs s p result s' := by
  induction p generalizing s with
  | done a => exact ⟨_, s, rfl, .done s a⟩
  | fail e => exact ⟨_, s, rfl, .fail s e⟩
  | call r k ih =>
    have served := clear.answer r
    obtain ⟨result, s', played, runs⟩ := ih (s.serve r).1 (clear.serve r)
    refine ⟨result, s', ?_, .call ⟨clear, served⟩ runs⟩
    rw [Stage.play, served]
    exact played

end IsClear

theorem serve_validUsers (s : Stage) : s.serve .validUsers = (.ok s.listed, s) := by
  unfold Stage.serve listed
  cases s.listing <;> rfl

theorem serve_of_keeper {r : Request} {reply : r.Reply} (served : keeper s r reply s') :
    s.IsClear ∧ s.serve r = (reply, s') := by
  obtain ⟨clear, answered⟩ := served
  rw [clear.answer r] at answered
  cases answered
  exact ⟨clear, rfl⟩

theorem keeper_isTruthful : keeper.IsTruthful store where
  lists {s reply s'} served := by
    obtain ⟨_, told⟩ := serve_of_keeper served
    rw [s.serve_validUsers] at told
    cases told
    exact ⟨rfl, _, rfl⟩
  idle inquiry served := by
    obtain ⟨clear, told⟩ := serve_of_keeper served
    rw [clear.serve_of_inquiry inquiry] at told
    cases told
    rfl
  serves {s _ _ _} inquiry served := by
    obtain ⟨clear, told⟩ := serve_of_keeper served
    rw [clear.serve_of_inquiry inquiry] at told
    cases told
    exact (s.store.serves_of_isInquiry s.surroundings inquiry).1

theorem index_of_keeper {count index : Nat} (served : keeper s (.index count) index s') :
    index = s.deck.headD 0 ∧ s'.store = s.store ∧ s'.asked = s.asked ++ [count] := by
  obtain ⟨_, told⟩ := serve_of_keeper served
  cases told
  exact ⟨rfl, rfl, rfl⟩

/-- The choice of a candidate on a clear stage: nothing changes in the store, and chance is the next
card of the deck. -/
theorem chooses_candidate (clear : s.IsClear) (ruler : Geo.Ruler) (person : Person) :
    let eligible := s.listed.filter (s.store.isEligible ruler person)
    let newcomers := s.store.newcomers person eligible
    ∃ chosen s', s.play (chooseCandidate ruler person) = (some (.ok chosen), s') ∧
      s'.store = s.store ∧ (chosen = none ↔ eligible = []) ∧
      (newcomers ≠ [] →
        chosen = newcomers[min (s.deck.headD 0) (newcomers.length - 1)]? ∧
          s'.asked = s.asked ++ [newcomers.length]) ∧
      (newcomers = [] → s'.asked = s.asked ∧ ∀ v, chosen = some v ↔
        s.store.IsLongestAgo person eligible .mismatched v ∨
          (∀ w ∈ eligible, ∀ a ∈ s.store.latestOfPair? person.profile.userId w,
            a.state ≠ .mismatched) ∧ s.store.IsLongestAgo person eligible .matched v) := by
  intro eligible newcomers
  obtain ⟨result, s', played, runs⟩ := clear.play (chooseCandidate ruler person)
  obtain ⟨ids, chosen, listed, told, none_iff, picks, falls⟩ :=
    runs.chooses keeper_isTruthful fun told => by
      obtain ⟨clear, told⟩ := serve_of_keeper told
      rw [clear.serve_of_inquiry rfl] at told
      cases told
      rfl
  have same : ids = s.listed := by
    obtain ⟨_, told⟩ := serve_of_keeper listed
    rw [s.serve_validUsers] at told
    cases told
    rfl
  subst same
  refine ⟨chosen, s', by rw [played, told], ?_, none_iff, ?_, fun nobody => ?_⟩
  · by_cases nobody : newcomers = []
    · rw [(falls nobody).1]
    · obtain ⟨index, chance, _⟩ := picks nobody
      exact (index_of_keeper chance).2.1
  · intro somebody
    obtain ⟨index, chance, picked⟩ := picks somebody
    obtain ⟨rfl, _, asked⟩ := index_of_keeper chance
    exact ⟨picked, asked⟩
  · obtain ⟨rfl, given⟩ := falls nobody
    exact ⟨rfl, given⟩

/-- A village listed from the last person to the first, where chance gives an index far too
great. -/
def market : Stage where
  store := Store.village [1, 2, 3]
  listing := some [3, 2, 1]
  deck := [7]
  photoBase := "photos"

def trader : Person := (market.store.personOf? 1).get rfl

/-- Both others are new to the trader, and the last one of them is picked. -/
theorem chooses_candidate_market : market.IsClear ∧
    ∃ s', market.play (chooseCandidate (fun _ _ => some 0) trader) = (some (.ok (some 2)), s') ∧
      s'.store = market.store ∧ s'.asked = [2] := by
  have clear : market.IsClear := ⟨rfl, rfl⟩
  obtain ⟨chosen, s', played, same, _, picks, _⟩ :=
    chooses_candidate clear (fun _ _ => some 0) trader
  have new : market.store.newcomers trader
      (market.listed.filter (market.store.isEligible (fun _ _ => some 0) trader)) = [3, 2] := by
    decide +kernel
  rw [new] at picks
  obtain ⟨told, asked⟩ := picks (by simp)
  have second : chosen = some 2 := told
  rw [second] at played
  exact ⟨clear, s', played, same, asked⟩

end Stage
end Rehearsal
end Matchmaking
