import Matchmaking.Proofs.Decimal.Order
import Matchmaking.Proofs.Engine.Selection
import Matchmaking.Proofs.Traffic.Schedule
/-! Relaxed preferences lose no candidate. Preferences that are relaxed around the same center
accept every profile that they accepted before, so every candidate who was filed is filed again,
with the same history, and others may come between. -/
namespace Matchmaking

namespace Preferences

variable {p p' : Preferences} {q : Profile} {ruler : Geo.Ruler}

/-- These preferences look for the same as the others or for more, around the same center. An age of
zero does not bound, so it is the least one below and the greatest one above. -/
structure Relaxes (p' p : Preferences) : Prop where
  center : p'.center = p.center
  gender : p'.gender = p.gender ∨ p'.gender = none
  minAge : p'.minAge ≤ p.minAge
  maxAge : p'.maxAge = 0 ∨ p.maxAge ≠ 0 ∧ p.maxAge ≤ p'.maxAge
  radiusKm : p.radiusKm ≤ p'.radiusKm

namespace Relaxes

variable (relaxes : p'.Relaxes p)

include relaxes

theorem acceptsGender {gender : Option Gender} (accepted : p.acceptsGender gender) :
    p'.acceptsGender gender := by
  rcases relaxes.gender with same | any
  · rwa [Preferences.acceptsGender, same]
  · simp [Preferences.acceptsGender, any]

theorem acceptsAge {age : Nat} (accepted : p.acceptsAge age) : p'.acceptsAge age := by
  have least := relaxes.minAge
  have most := relaxes.maxAge
  simp only [Preferences.acceptsAge, Bool.and_eq_true, Bool.or_eq_true, beq_iff_eq,
    decide_eq_true_eq] at accepted ⊢
  omega

theorem acceptsDistance {km : Option Float} (accepted : p.acceptsDistance km) :
    p'.acceptsDistance km := by
  obtain ⟨d, told, near⟩ := (Option.any_eq_true _ _).mp accepted
  refine (Option.any_eq_true _ _).mpr ⟨d, told, decide_eq_true ?_⟩
  exact Decimal.double_le_trans (of_decide_eq_true near) relaxes.radiusKm

theorem acceptsBy (accepted : p.acceptsBy ruler q) : p'.acceptsBy ruler q := by
  have distance : p'.distanceTo? ruler q.location = p.distanceTo? ruler q.location := by
    unfold distanceTo?
    rw [relaxes.center]
  simp only [Preferences.acceptsBy, Bool.and_eq_true] at accepted ⊢
  obtain ⟨⟨gender, age⟩, near⟩ := accepted
  refine ⟨⟨relaxes.acceptsGender gender, relaxes.acceptsAge age⟩, ?_⟩
  rw [distance]
  exact relaxes.acceptsDistance near

theorem isComplete (complete : p.isComplete) : p'.isComplete := by
  simp only [Preferences.isComplete, Bool.and_eq_true, decide_eq_true_eq] at complete ⊢
  rw [relaxes.center]
  exact ⟨complete.1, Decimal.double_lt_of_lt_of_le complete.2 relaxes.radiusKm⟩

end Relaxes

end Preferences

namespace Store

open Engine

variable {s s' : Store} {around : Surroundings} {ruler : Geo.Ruler} {person : Person}
  {p p' : Preferences} {profile : Profile} {user v : UserId}

section Running

def keeper (around : Surroundings) : Keeper Store := fun s r reply s' =>
  s.serve around r = (reply, s')

theorem runs_run {α : Type} (around : Surroundings) (s : Store) (program : Program α) :
    (keeper around).Runs s program (s.run around program).1 (s.run around program).2 := by
  induction program generalizing s with
  | done a => exact .done s a
  | fail e => exact .fail s e
  | call r k ih => exact .call rfl (ih _ _)

theorem keeper_isTruthful : (keeper around).IsTruthful id where
  lists served := by
    cases served
    exact ⟨rfl, _, rfl⟩
  idle {s r reply s'} inquiry (served : s.serve around r = (reply, s')) := by
    simpa only [served] using (s.serves_of_isInquiry around inquiry).2
  serves {s r reply s'} inquiry (served : s.serve around r = (reply, s')) := by
    simpa only [id, served] using (s.serves_of_isInquiry around inquiry).1

/-- `collect` files exactly the eligible among the people listed, each by the latest attempt of the
two. -/
theorem run_collect (around : Surroundings) (s : Store) (ruler : Geo.Ruler) (person : Person)
    (ids : List UserId) : s.run around (collect ruler person {} ids) =
      (.ok (Buckets.file {} (s.filings person (ids.filter (s.isEligible ruler person)))), s) := by
  obtain ⟨b, told, same, fs, files, rfl⟩ :=
    (runs_run around s (collect ruler person {} ids)).collect keeper_isTruthful
  have filed : fs = s.filings person (ids.filter (s.isEligible ruler person)) :=
    files.eq_filings fun told => by
      cases told
      rfl
  rw [← filed]
  exact Prod.ext told same

end Running

structure AgreesBut (user : UserId) (s s' : Store) : Prop where
  attempts : s'.attempts = s.attempts
  profiles : ∀ v ≠ user, s'.profileOf? v = s.profileOf? v
  preferences : ∀ v ≠ user, s'.preferencesOf? v = s.preferencesOf? v

namespace AgreesBut

theorem putPreferences (s : Store) (p : Preferences) :
    AgreesBut p.userId s (s.putPreferences p) where
  attempts := rfl
  profiles _ _ := rfl
  preferences v other := by
    have absent : [p].find? (·.userId == v) = none := by simp [Ne.symm other]
    rw [preferencesOf?, preferencesOf?, Store.putPreferences, List.find?_append, absent,
      Option.or_none, List.find?_filter]
    congr 1
    funext q
    by_cases here : q.userId = v <;> simp [here, other]

variable (agrees : AgreesBut user s s')

include agrees

theorem personOf? (other : v ≠ user) : s'.personOf? v = s.personOf? v := by
  rw [Store.personOf?, Store.personOf?, agrees.profiles v other, agrees.preferences v other]

theorem filings (person : Person) (ids : List UserId) :
    s'.filings person ids = s.filings person ids := by
  simp only [Store.filings, Store.latestOfPair?, agrees.attempts]

theorem arePending (u v : UserId) : s'.arePending u v = s.arePending u v := by
  rw [Store.arePending, Store.arePending, agrees.attempts]

end AgreesBut

theorem isEligible_of_relaxes (relaxes : p'.Relaxes p) (agrees : AgreesBut profile.userId s s')
    (eligible : s.isEligible ruler ⟨profile, p⟩ v) : s'.isEligible ruler ⟨profile, p'⟩ v := by
  obtain ⟨other, ⟨q, known, complete, suits⟩, free⟩ := isEligible_iff.mp eligible
  simp only [Person.suitsBy, Bool.and_eq_true] at suits
  refine isEligible_iff.mpr ⟨other, ⟨q, ?_, complete, ?_⟩, ?_⟩
  · rwa [agrees.personOf? other]
  · simp [Person.suitsBy, relaxes.acceptsBy suits.1, suits.2]
  · rwa [agrees.arePending]

theorem filings_sublist (relaxes : p'.Relaxes p) (agrees : AgreesBut profile.userId s s')
    (ids : List UserId) :
    (s.filings ⟨profile, p⟩ (ids.filter (s.isEligible ruler ⟨profile, p⟩))).Sublist
      (s'.filings ⟨profile, p'⟩ (ids.filter (s'.isEligible ruler ⟨profile, p'⟩))) := by
  rw [agrees.filings]
  refine List.Sublist.map _ (List.monotone_filter_right ids ?_)
  exact fun v eligible => isEligible_of_relaxes relaxes agrees eligible

/-- Relaxing preferences loses no candidate: a profile that was accepted is accepted, complete
preferences stay complete, and a user who was filed by `collect`, from any list and over any store,
is filed after the preferences have been replaced. -/
theorem relaxing_loses_nobody (relaxes : p'.Relaxes p) :
    (∀ ruler q, p.acceptsBy ruler q → p'.acceptsBy ruler q) ∧ (p.isComplete → p'.isComplete) ∧
    ∀ (ruler : Geo.Ruler) (around : Surroundings) (profile : Profile) (ids : List UserId)
      (s s' : Store), AgreesBut profile.userId s s' →
      (∀ v, s.isEligible ruler ⟨profile, p⟩ v → s'.isEligible ruler ⟨profile, p'⟩ v) ∧
      ∃ fs fs' : List Filing,
        s.run around (collect ruler ⟨profile, p⟩ {} ids) = (.ok (Buckets.file {} fs), s) ∧
        s'.run around (collect ruler ⟨profile, p'⟩ {} ids) = (.ok (Buckets.file {} fs'), s') ∧
        fs.Sublist fs' := by
  refine ⟨fun _ _ => relaxes.acceptsBy, relaxes.isComplete, ?_⟩
  intro ruler around profile ids s s' agrees
  refine ⟨fun _ => isEligible_of_relaxes relaxes agrees, _, _, run_collect .., run_collect .., ?_⟩
  exact filings_sublist relaxes agrees ids

def choosy : Preferences :=
  { userId := 1, gender := some .male, minAge := 25, maxAge := 35, latitude := some 0,
    longitude := some 0, radiusKm := 1 }

def easygoing : Preferences :=
  { userId := 1, latitude := some 0, longitude := some 0, radiusKm := 2.5 }

/-- The neighbours of a person who was choosy and has become easygoing. -/
theorem relaxing_loses_nobody_village :
    let s := village [1, 2, 3]
    let profile := (s.profileOf? 1).get rfl
    let near : Geo.Ruler := fun _ _ => some 0.5
    easygoing.Relaxes choosy ∧ s.isEligible near ⟨profile, choosy⟩ 3 ∧
      (s.putPreferences easygoing).isEligible near ⟨profile, easygoing⟩ 3 := by
  intro s profile near
  have relaxes : easygoing.Relaxes choosy :=
    ⟨rfl, .inr rfl, by decide, .inl rfl, by decide +kernel⟩
  have eligible : s.isEligible near ⟨profile, choosy⟩ 3 := by decide +kernel
  obtain ⟨-, -, kept⟩ := relaxing_loses_nobody relaxes
  have agrees : AgreesBut profile.userId s (s.putPreferences easygoing) :=
    .putPreferences s easygoing
  exact ⟨relaxes, eligible, (kept near { photoBase := "" } profile [] _ _ agrees).1 3 eligible⟩

end Store

end Matchmaking
