import Matchmaking.Proofs.Engine.Filing
import Matchmaking.Proofs.Engine.Keeper
/-! Which users are eligible for a person, and that `chooseCandidate` chooses among them: the
eligible among the listed people are filed, by the latest attempt of the two, and no others. -/
namespace Matchmaking

def Request.isInquiry : Request → Bool
  | profile _ | preferences _ | pendingOfPair _ _ | latestOfPair _ _ => true
  | _ => false

theorem Request.isPlain_of_isInquiry {r : Request} (inquiry : r.isInquiry) : r.isPlain := by
  cases r <;> first | rfl | cases inquiry

namespace Store

def personOf? (s : Store) (v : UserId) : Option Person :=
  match s.profileOf? v, s.preferencesOf? v with
  | some profile, some preferences => some { profile, preferences }
  | _, _ => none

def arePending (s : Store) (u v : UserId) : Bool :=
  s.attempts.any fun a => a.joins u v && a.isPending

/-- Another user with complete records, where each of the two accepts the other and no attempt of
theirs is pending. -/
def isEligible (s : Store) (ruler : Geo.Ruler) (person : Person) (v : UserId) : Bool :=
  v ≠ person.profile.userId &&
    (s.personOf? v).any (fun candidate =>
      candidate.isComplete && person.suitsBy ruler candidate) &&
    !s.arePending person.profile.userId v

variable {s s' : Store} {ruler : Geo.Ruler} {person : Person} {v w : UserId}

theorem personOf?_eq_some {q : Person} : s.personOf? v = some q ↔
    s.profileOf? v = some q.profile ∧ s.preferencesOf? v = some q.preferences := by
  obtain ⟨profile, preferences⟩ := q
  unfold personOf?
  cases s.profileOf? v <;> cases s.preferencesOf? v <;> simp

theorem arePending_iff {u : UserId} :
    s.arePending u v ↔ ∃ a ∈ s.attempts, a.joins u v ∧ a.isPending := by
  simp [arePending]

theorem isEligible_iff : s.isEligible ruler person v ↔
    v ≠ person.profile.userId ∧
      (∃ q, s.personOf? v = some q ∧ q.isComplete ∧ person.suitsBy ruler q) ∧
      ¬s.arePending person.profile.userId v := by
  simp [isEligible, Option.any_eq_true, and_assoc]

theorem profile_of_isEligible (eligible : s.isEligible ruler person v) :
    (s.profileOf? v).isSome := by
  obtain ⟨_, ⟨q, found, _⟩, _⟩ := isEligible_iff.1 eligible
  simp [(personOf?_eq_some.1 found).1]

theorem preferences_of_isEligible (eligible : s.isEligible ruler person v) :
    (s.preferencesOf? v).isSome := by
  obtain ⟨_, ⟨q, found, _⟩, _⟩ := isEligible_iff.1 eligible
  simp [(personOf?_eq_some.1 found).2]

section Latest

variable (s : Store) (person : Person) (ids : List UserId)

def filings : List Filing :=
  ids.map fun v => (v, (s.latestOfPair? person.profile.userId v).map Attempt.history)

def newcomers : List UserId :=
  ids.filter fun v => (s.latestOfPair? person.profile.userId v).isNone

/-- Of these people whose latest attempt with the person stands there, that one's is the longest
ago; ids decide between equals. -/
def IsLongestAgo (state : State) (v : UserId) : Prop :=
  v ∈ ids ∧ ∃ a ∈ s.latestOfPair? person.profile.userId v, a.state = state ∧
    ∀ w ∈ ids, ∀ b ∈ s.latestOfPair? person.profile.userId w, b.state = state →
      Buckets.precedes (a.createdAt, v) (b.createdAt, w)

variable {s person ids} {state : State}

theorem mem_filings {at_ : Timestamp} : (v, some (state, at_)) ∈ s.filings person ids ↔
    v ∈ ids ∧ ∃ a ∈ s.latestOfPair? person.profile.userId v, a.state = state ∧
      a.createdAt = at_ := by
  simp only [filings, List.mem_map, Prod.mk.injEq, Option.map_eq_some_iff, Attempt.history,
    Option.mem_def]
  constructor
  · rintro ⟨_, mem, rfl, a, found, same⟩
    exact ⟨mem, a, found, same⟩
  · rintro ⟨mem, a, found, same⟩
    exact ⟨v, mem, rfl, a, found, same⟩

theorem strangers_filings : Buckets.strangers (s.filings person ids) = s.newcomers person ids := by
  induction ids with
  | nil => rfl
  | cons v rest ih =>
    cases found : s.latestOfPair? person.profile.userId v <;>
      simp_all [Buckets.strangers, filings, newcomers]

theorem isLongestAgo_filings : Buckets.IsLongestAgo (s.filings person ids) state v ↔
    s.IsLongestAgo person ids state v := by
  simp only [Buckets.IsLongestAgo, mem_filings, IsLongestAgo]
  constructor
  · rintro ⟨_, ⟨mem, a, found, stands, rfl⟩, first⟩
    refine ⟨mem, a, found, stands, ?_⟩
    intro w listed b found' stands'
    exact first w b.createdAt ⟨listed, b, found', stands', rfl⟩
  · rintro ⟨mem, a, found, stands, first⟩
    refine ⟨a.createdAt, ⟨mem, a, found, stands, rfl⟩, ?_⟩
    rintro w _ ⟨listed, b, found', stands', rfl⟩
    exact first w listed b found' stands'

theorem none_mem_filings : (∀ v at_, (v, some (state, at_)) ∉ s.filings person ids) ↔
    ∀ v ∈ ids, ∀ a ∈ s.latestOfPair? person.profile.userId v, a.state ≠ state := by
  simp only [mem_filings]
  constructor
  · intro absent v mem a found stands
    exact absent v a.createdAt ⟨mem, a, found, stands, rfl⟩
  · rintro absent v at_ ⟨mem, a, found, stands, _⟩
    exact absent v mem a found stands

end Latest

theorem serves_of_isInquiry (s : Store) (around : Surroundings) {r : Request}
    (inquiry : r.isInquiry) :
    s.Serves r (s.serve around r).1 s ∧ (s.serve around r).2 = s := by
  cases r with
  | profile v => exact ⟨.profile v, rfl⟩
  | preferences v => exact ⟨.preferences v, rfl⟩
  | pendingOfPair u v => exact ⟨s.pendingOfPair?_serves u v, rfl⟩
  | latestOfPair u v => exact ⟨s.latestOfPair?_serves u v, rfl⟩
  | _ => cases inquiry

end Store

namespace Keeper

open Program Engine

variable {σ : Type} {keeper : Keeper σ} {store : σ → Store} {ruler : Geo.Ruler} {person : Person}
  {x x' : σ} {b : Buckets}

/-- People are listed in some order. Inquiries are answered as the store in view has it, and leave
everything as it is. -/
structure IsTruthful (keeper : Keeper σ) (store : σ → Store) : Prop where
  lists : ∀ {x reply x'}, keeper x .validUsers reply x' → x' = x ∧ ∃ ids, reply = .ok ids
  idle : ∀ {x r reply x'}, r.isInquiry → keeper x r reply x' → x' = x
  serves : ∀ {x r reply x'}, r.isInquiry → keeper x r reply x' →
    (store x).Serves r reply (store x)

structure Files (keeper : Keeper σ) (x : σ) (person : Person) (ids : List UserId)
    (fs : List Filing) : Prop where
  filed : fs.map Prod.fst = ids
  told : ∀ f ∈ fs, ∃ found, keeper x (.latestOfPair person.profile.userId f.1) (.ok found) x ∧
    f.2 = found.map Attempt.history

def Fills (keeper : Keeper σ) (store : σ → Store) (ruler : Geo.Ruler) (person : Person) (x : σ)
    (ids : List UserId) (b b' : Buckets) : Prop :=
  ∃ fs, keeper.Files x person (ids.filter ((store x).isEligible ruler person)) fs ∧ b' = b.file fs

theorem Fills.skip {id : UserId} (refused : (store x).isEligible ruler person id = false) :
    keeper.Fills store ruler person x [id] b b :=
  ⟨[], ⟨by simp [refused], by simp⟩, rfl⟩

theorem Fills.insert {id : UserId} {latest : Option Attempt}
    (eligible : (store x).isEligible ruler person id)
    (told : keeper x (.latestOfPair person.profile.userId id) (.ok latest) x) :
    keeper.Fills store ruler person x [id] b (b.insert id (latest.map Attempt.history)) := by
  refine ⟨[(id, latest.map Attempt.history)], ⟨by simp [eligible], ?_⟩, rfl⟩
  intro f mem
  rw [List.mem_singleton.1 mem]
  exact ⟨latest, told, rfl⟩

variable (truthful : keeper.IsTruthful store)

include truthful

theorem Runs.of_inquiry {α : Type} {r : Request} {k : r.Reply → Program α}
    {result : Except MatchError α} (runs : keeper.Runs x (.call r k) result x')
    (inquiry : r.isInquiry) :
    ∃ reply, keeper x r reply x ∧ (store x).Serves r reply (store x) ∧
      keeper.Runs x (k reply) result x' := by
  obtain ⟨reply, x₁, served, rest⟩ := runs.of_call
  have serves := truthful.serves inquiry served
  obtain rfl := truthful.idle inquiry served
  exact ⟨reply, served, serves, rest⟩

/-- A suited candidate is filed, unless an attempt of the two is pending. -/
theorem Runs.consider_suited {id : UserId} {q : Person} {result : Except MatchError Buckets}
    (other : id ≠ person.profile.userId) (known : (store x).personOf? id = some q)
    (fit : q.isComplete ∧ person.suitsBy ruler q)
    (runs : keeper.Runs x (do
      let pending ← expect "can't get pending pair attempt"
        (← send (.pendingOfPair person.profile.userId id))
      if pending.isSome then return b
      let latest ← expect "can't get latest pair attempt"
        (← send (.latestOfPair person.profile.userId id))
      return b.insert id (latest.map Attempt.history)) result x') :
    ∃ b', result = .ok b' ∧ x' = x ∧ keeper.Fills store ruler person x [id] b b' := by
  obtain ⟨_, _, served, runs⟩ := Runs.of_inquiry truthful runs rfl
  cases served with
  | pendingOfPair mem joins pending =>
    obtain ⟨told, same⟩ := runs.of_done
    have taken : (store x).arePending person.profile.userId id :=
      Store.arePending_iff.2 ⟨_, mem, joins, pending⟩
    exact ⟨b, told, same, .skip (by simp [Store.isEligible, taken])⟩
  | nonePending absent =>
    have free : ¬(store x).arePending person.profile.userId id := by
      rw [Store.arePending_iff]
      rintro ⟨a, mem, joins, pending⟩
      exact absent a mem joins pending
    have eligible : (store x).isEligible ruler person id :=
      Store.isEligible_iff.2 ⟨other, ⟨q, known, fit⟩, free⟩
    obtain ⟨reply, told, served, runs⟩ := Runs.of_inquiry truthful runs rfl
    have filed {latest : Option Attempt} (same : reply = .ok latest) :
        ∃ b', result = .ok b' ∧ x' = x ∧ keeper.Fills store ruler person x [id] b b' := by
      subst same
      obtain ⟨ended, rfl⟩ := Runs.of_done runs
      exact ⟨_, ended, rfl, .insert eligible told⟩
    cases served <;> exact filed rfl

/-- `consider` files a candidate exactly when they are eligible. -/
theorem Runs.consider {id : UserId} {result : Except MatchError Buckets}
    (runs : keeper.Runs x (Engine.consider ruler person b id) result x') :
    ∃ b', result = .ok b' ∧ x' = x ∧ keeper.Fills store ruler person x [id] b b' := by
  have skipped (refused : (store x).isEligible ruler person id = false)
      (runs : keeper.Runs x (.done b) result x') :
      ∃ b', result = .ok b' ∧ x' = x ∧ keeper.Fills store ruler person x [id] b b' := by
    obtain ⟨told, same⟩ := runs.of_done
    exact ⟨b, told, same, .skip refused⟩
  rw [Engine.consider] at runs
  split at runs
  · next self => exact skipped (by simp [Store.isEligible, self]) runs
  next other =>
  obtain ⟨_, _, served, runs⟩ := Runs.of_inquiry truthful runs rfl
  cases served
  dsimp only [Program.bind, expect_ok, done_bind, bind] at runs
  split at runs
  swap
  · next absent =>
    have nobody : (store x).preferencesOf? id = none := Option.eq_none_iff_forall_ne_some.2 absent
    refine skipped ?_ runs
    simp [Store.isEligible, Store.personOf?, nobody]
  next preferences wanted =>
  obtain ⟨_, _, served, runs⟩ := Runs.of_inquiry truthful runs rfl
  cases served
  dsimp only [Program.bind, expect_ok, done_bind, bind] at runs
  split at runs
  swap
  · next absent =>
    have nobody : (store x).profileOf? id = none := Option.eq_none_iff_forall_ne_some.2 absent
    refine skipped ?_ runs
    simp [Store.isEligible, Store.personOf?, nobody]
  next profile found =>
  have known : (store x).personOf? id = some { profile, preferences } :=
    Store.personOf?_eq_some.2 ⟨found, wanted⟩
  split at runs
  · next unfit =>
    refine skipped ?_ runs
    simp only [Store.isEligible, known, Option.any_some]
    simp only [Bool.or_eq_true, Bool.not_eq_true'] at unfit
    rcases unfit with incomplete | unsuited
    · simp [incomplete]
    · simp [unsuited]
  next fit =>
  simp only [Bool.or_eq_true, Bool.not_eq_true', not_or, Bool.not_eq_false] at fit
  exact Runs.consider_suited truthful other known fit runs

theorem Runs.collect {ids : List UserId} {result : Except MatchError Buckets}
    (runs : keeper.Runs x (Engine.collect ruler person b ids) result x') :
    ∃ b', result = .ok b' ∧ x' = x ∧ keeper.Fills store ruler person x ids b b' := by
  induction ids generalizing b with
  | nil =>
    obtain ⟨told, same⟩ := runs.of_done
    exact ⟨b, told, same, [], ⟨rfl, by simp⟩, rfl⟩
  | cons id rest ih =>
    obtain ⟨_, _, ⟨rfl, fs, files, rfl⟩, runs⟩ := runs.of_bind_of_ok
      (P := fun b₁ x₁ => x₁ = x ∧ keeper.Fills store ruler person x [id] b b₁)
      (Runs.consider truthful)
    obtain ⟨_, told, same, fs', files', rfl⟩ := ih runs
    refine ⟨_, told, same, fs ++ fs', ⟨?_, ?_⟩, ?_⟩
    · rw [List.map_append, files.filed, files'.filed, ← List.filter_append]
      rfl
    · exact List.forall_mem_append.2 ⟨files.told, files'.told⟩
    · rw [Buckets.file, Buckets.file, Buckets.file, List.foldl_append]

theorem Files.admits {ids : List UserId} {fs : List Filing}
    (files : keeper.Files x person (ids.filter ((store x).isEligible ruler person)) fs) :
    ∀ f ∈ fs, Buckets.admits f.2 := by
  intro f mem
  obtain ⟨found, told, history⟩ := files.told f mem
  have listed : f.1 ∈ ids.filter ((store x).isEligible ruler person) := by
    rw [← files.filed]
    exact List.mem_map_of_mem mem
  have free := (Store.isEligible_iff.1 (List.mem_filter.1 listed).2).2.2
  rw [history]
  cases truthful.serves rfl told with
  | neverPaired => rfl
  | @latestOfPair _ _ a stored joins _ =>
    cases state : a.state with
    | pending =>
      have pending : a.isPending := by simp [Attempt.isPending, state]
      exact absurd (Store.arePending_iff.2 ⟨a, stored, joins, pending⟩) free
    | matched => simp [Attempt.history, state, Buckets.admits]
    | mismatched => simp [Attempt.history, state, Buckets.admits]

omit truthful

theorem Files.eq_filings {s : Store} {ids : List UserId} {fs : List Filing}
    (files : keeper.Files x person ids fs)
    (latest : ∀ {v found}, keeper x (.latestOfPair person.profile.userId v) (.ok found) x →
      found = s.latestOfPair? person.profile.userId v) : fs = s.filings person ids := by
  have each : ∀ f ∈ fs,
      f = (f.1, (s.latestOfPair? person.profile.userId f.1).map Attempt.history) := by
    intro f mem
    obtain ⟨found, told, history⟩ := files.told f mem
    rw [← latest told, ← history]
  calc
    fs = fs.map id := (List.map_id fs).symm
    _ = fs.map fun f =>
        (f.1, (s.latestOfPair? person.profile.userId f.1).map Attempt.history) :=
      List.map_congr_left each
    _ = s.filings person ids := by rw [← files.filed, Store.filings, List.map_map]; rfl

theorem Runs.pick {result : Except MatchError (Option UserId)}
    (runs : keeper.Runs x b.pick result x') :
    ∃ index, result = .ok (b.answer index) ∧
      if b.fresh = [] then x' = x else keeper x (.index b.fresh.length) index x' := by
  unfold Buckets.pick Buckets.question at runs
  by_cases none_new : b.fresh = []
  · rw [if_pos none_new] at runs
    obtain ⟨told, same⟩ := runs.of_done
    exact ⟨0, told, by rw [if_pos none_new, same]⟩
  · rw [if_neg none_new] at runs
    obtain ⟨index, x₁, served, rest⟩ := Runs.of_call runs
    obtain ⟨told, rfl⟩ := rest.of_done
    exact ⟨index, told, by rwa [if_neg none_new]⟩

include truthful

/-- The result of `chooseCandidate` is an `answer` of the buckets in which the eligible among the
listed people are filed. -/
theorem Runs.chooseCandidate {result : Except MatchError (Option UserId)}
    (runs : keeper.Runs x (Engine.chooseCandidate ruler person) result x') :
    ∃ ids fs index, keeper x .validUsers (.ok ids) x ∧
      keeper.Files x person (ids.filter ((store x).isEligible ruler person)) fs ∧
      result = .ok ((Buckets.file {} fs).answer index) ∧
      if Buckets.strangers fs = [] then x' = x
      else keeper x (.index (Buckets.strangers fs).length) index x' := by
  obtain ⟨reply, x₁, listed, runs⟩ := runs.of_call
  obtain ⟨rfl, ids, rfl⟩ := truthful.lists listed
  obtain ⟨_, _, ⟨rfl, fs, files, rfl⟩, runs⟩ := Runs.of_bind_of_ok
    (P := fun b₁ x₂ => x₂ = x₁ ∧ keeper.Fills store ruler person x₁ ids {} b₁)
    (Runs.collect truthful) runs
  obtain ⟨index, told, chance⟩ := Runs.pick runs
  refine ⟨ids, fs, index, listed, files, told, ?_⟩
  have new : (Buckets.file {} fs).fresh = Buckets.strangers fs := by simp [Buckets.file_eq]
  rwa [new] at chance

end Keeper
end Matchmaking
