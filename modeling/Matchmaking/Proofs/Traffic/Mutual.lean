import Matchmaking.Proofs.Traffic.Ledger
import Matchmaking.Proofs.Traffic.Schedule
/-! Mutual consent: whatever overlaps, fails or stops, a match, its chat and its notices rest on a
like of each of the two people. -/
namespace Matchmaking
namespace Traffic

def Swiped (t : Traffic) (e : Event) (user : UserId) (verdict : Verdict) : Prop :=
  ∃ i principal candidate, t.Made i (.swipe principal candidate verdict) ∧ principal.id = user ∧
    t.Wrote i e

structure MutualConsent (t : Traffic) : Prop where
  matched : ∀ a ∈ t.store.attempts, a.state = .matched →
    ∃ e₁ e₂, [e₁, e₂].Sublist (t.store.eventsOf a.id) ∧
      e₁.happening = .firstLiked ∧ t.Swiped e₁ a.first .like ∧
      e₂.happening = .secondLiked ∧ t.Swiped e₂ a.second .like
  mismatched : ∀ a ∈ t.store.attempts, a.state = .mismatched →
    ∃ e ∈ t.store.eventsOf a.id, ∃ side, e.happening = .swipe side .dislike ∧
      t.Swiped e (a.person side) .dislike
  /-- The second side is not shown the first one and does not answer before a like. -/
  ordered : ∀ id front h back, t.store.story id = front ++ h :: back →
    h = .shownToSecond ∨ h = .secondLiked ∨ h = .secondDisliked → .firstLiked ∈ front
  /-- Chats belong to distinct matches of the same two people, and notices of matches to distinct
  sides of matches that have a chat. -/
  booked : ∃ (as : List Attempt) (told : List (Attempt × Role)),
    as.Nodup ∧ (∀ a ∈ as, a ∈ t.store.attempts ∧ a.state = .matched) ∧
      t.store.chats.map Chat.people = as.map Attempt.people ∧
      told.Nodup ∧ (∀ entry ∈ told, entry.1 ∈ as) ∧
      t.store.receivers .matched = told.map fun entry => entry.1.person entry.2
  announced : ∀ d ∈ t.store.deliveries, d.kind = .liked → t.store.IsAnnounced d.receiver

namespace Sound

variable {t : Traffic}

theorem swiped (sound : t.Sound) (side : Role) (verdict : Verdict) {a : Attempt} {e : Event}
    (stored : a ∈ t.store.attempts) (mem : e ∈ t.store.eventsOf a.id)
    (answer : e.happening = .swipe side verdict) : t.Swiped e (a.person side) verdict := by
  obtain ⟨logged, about⟩ := t.store.mem_eventsOf.1 mem
  obtain ⟨i, c, b, signed⟩ := sound.signed e logged
  have same : b = a := sound.register.unique b signed.mem a stored (signed.about.trans about)
  rw [← same]
  obtain ⟨principal, candidate, rfl⟩ := signed.may.answer side verdict answer
  refine ⟨i, principal, candidate, signed.made, ?_, signed.wrote⟩
  have open_ : e.happening.isTerminal = false := by rw [answer, Happening.isTerminal_swipe]
  have person := signed.may.side open_
  rw [answer, Happening.side_swipe] at person
  exact person.symm

theorem consent_of_match (sound : t.Sound) {a : Attempt} (stored : a ∈ t.store.attempts)
    (state : a.state = .matched) :
    ∃ e₁ e₂, [e₁, e₂].Sublist (t.store.eventsOf a.id) ∧
      e₁.happening = .firstLiked ∧ t.Swiped e₁ a.first .like ∧
      e₂.happening = .secondLiked ∧ t.Swiped e₂ a.second .like := by
  have grounds : [Happening.firstLiked, .secondLiked].Sublist (t.store.story a.id) :=
    sound.settled a stored .paired (by rw [state]; rfl)
  obtain ⟨events, sub, told⟩ := List.sublist_map_iff.1 grounds
  obtain ⟨e₁, rest, rfl, first, told⟩ := List.map_eq_cons_iff.1 told.symm
  obtain ⟨e₂, rest, rfl, second, told⟩ := List.map_eq_cons_iff.1 told
  obtain rfl := List.map_eq_nil_iff.1 told
  have mem₁ : e₁ ∈ t.store.eventsOf a.id := sub.subset (by simp)
  have mem₂ : e₂ ∈ t.store.eventsOf a.id := sub.subset (by simp)
  exact ⟨e₁, e₂, sub, first, sound.swiped .first .like stored mem₁ first, second,
    sound.swiped .second .like stored mem₂ second⟩

theorem dislike_of_mismatch (sound : t.Sound) {a : Attempt} (stored : a ∈ t.store.attempts)
    (state : a.state = .mismatched) :
    ∃ e ∈ t.store.eventsOf a.id, ∃ side, e.happening = .swipe side .dislike ∧
      t.Swiped e (a.person side) .dislike := by
  have grounds : .firstDisliked ∈ t.store.story a.id ∨ .secondDisliked ∈ t.store.story a.id :=
    sound.settled a stored .failed (by rw [state]; rfl)
  have given (side : Role) (mem : Happening.swipe side .dislike ∈ t.store.story a.id) :
      ∃ e ∈ t.store.eventsOf a.id, ∃ side, e.happening = .swipe side .dislike ∧
        t.Swiped e (a.person side) .dislike := by
    obtain ⟨e, mem, answer⟩ := List.mem_map.1 mem
    exact ⟨e, mem, side, answer, sound.swiped side .dislike stored mem answer⟩
  exact grounds.elim (given .first) (given .second)

end Sound

/-- In all traffic, however calls overlap, fail or stop, a match, its chat and its notices come only
after a like of both sides. -/
theorem mutual_consent {ruler : Geo.Ruler} {s : Store} {t : Traffic} (fresh : s.IsFresh)
    (reaches : Reaches ruler .any (opening s) t) : t.MutualConsent := by
  have sound := Reaches.sound reaches fresh
  obtain ⟨as, told, ledger⟩ := Reaches.ledger reaches fresh
  exact {
    matched := fun a stored state => sound.consent_of_match stored state
    mismatched := fun a stored state => sound.dislike_of_mismatch stored state
    ordered := by
      intro id front h back split second
      have grounds := sound.grounded id front h back split
      rcases second with rfl | rfl | rfl <;> exact grounds
    booked := ⟨as, told, ledger.nodup, ledger.matched, ledger.chats, ledger.told_nodup,
      ledger.told_mem, ledger.notices⟩
    announced := sound.announced }

/-- Two people who like each other. A call for a partner is dropped once and made again, and the
second person swipes twice at the same time. -/
def matchAfterDrop : Traffic :=
  (Scene.village (fun _ _ => true) true).perform (opening (Store.village [1, 2])) <|
    [.start (.next 0 ⟨1⟩)] ++ List.replicate 12 (.turn 0) ++ [.drop 0, .start (.next 0 ⟨1⟩)] ++
      turns 1 ++ [.start (.swipe ⟨1⟩ 2 .like)] ++ turns 2 ++
      [.start (.swipe ⟨2⟩ 1 .like), .start (.swipe ⟨2⟩ 1 .like), .turn 3, .turn 4, .turn 3,
        .turn 4] ++ turns 3 ++ turns 4

theorem mutual_consent_matchAfterDrop :
    matchAfterDrop.store.attempts.map Attempt.state = [.matched] ∧
      matchAfterDrop.store.story 1 = [.created, .shownToFirst, .firstLiked, .secondLiked, .paired,
        .secondLiked, .paired] ∧
      matchAfterDrop.store.chats.map Chat.people = [(1, 2)] ∧
      matchAfterDrop.store.receivers .matched = [2, 1] ∧ matchAfterDrop.MutualConsent := by
  refine ⟨by decide +kernel, by decide +kernel, by decide +kernel, by decide +kernel, ?_⟩
  have reaches := Scene.reaches_perform (t := opening (Store.village [1, 2]))
    (Scene.village (fun _ _ => true) true) (Store.isNumbered_village [1, 2])
  exact mutual_consent (Store.isFresh_village [1, 2]) (reaches _).to_any

end Traffic
end Matchmaking
