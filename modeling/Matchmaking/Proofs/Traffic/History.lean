import Matchmaking.Proofs.Traffic.Consent
import Matchmaking.Proofs.Traffic.Schedule
/-! One history per pair. Two people have at most one attempt pending, and what is recorded of an
attempt is never taken back, in whatever order the steps of any calls come and wherever they fail
or stop. -/
namespace Matchmaking

/-- A later record of an attempt: only its state may differ, and only if it was pending. -/
structure Attempt.Continues (b a : Attempt) : Prop where
  fixed : b = { a with state := b.state }
  final : a.state ≠ .pending → b.state = a.state

namespace Attempt.Continues

variable {a b c : Attempt}

theorem refl (a : Attempt) : a.Continues a := ⟨rfl, fun _ => rfl⟩

theorem trans (later : c.Continues b) (early : b.Continues a) : c.Continues a where
  fixed := by
    rw [later.fixed, early.fixed]
  final settled := by
    have same := early.final settled
    rw [← same] at settled
    exact (later.final settled).trans same

end Attempt.Continues

namespace Store

def IsExclusive (s : Store) : Prop :=
  ∀ a ∈ s.attempts, ∀ b ∈ s.attempts, a.isPending → b.isPending → b.joins a.first a.second → a = b

theorem IsExclusive.eq_of_joins {s : Store} (exclusive : s.IsExclusive) {a b : Attempt}
    {u v : UserId} (mem : a ∈ s.attempts) (pending : a.isPending) (joins : a.joins u v)
    (mem' : b ∈ s.attempts) (pending' : b.isPending) (joins' : b.joins u v) : b = a :=
  (exclusive a mem b mem' pending pending' (Attempt.joins_of_joins joins joins')).symm

/-- The later store has a record of every attempt of the earlier one, and its log goes on from
there. -/
structure Preserves (s s' : Store) : Prop where
  attempts : ∀ a ∈ s.attempts, ∃ b ∈ s'.attempts, b.Continues a
  events : ∀ id, s.eventsOf id <+: s'.eventsOf id

theorem Preserves.refl (s : Store) : s.Preserves s where
  attempts a mem := ⟨a, mem, .refl a⟩
  events _ := List.prefix_rfl

theorem Preserves.trans {s s' s'' : Store} (early : s.Preserves s') (later : s'.Preserves s'') :
    s.Preserves s'' where
  attempts a mem := by
    obtain ⟨b, mem, continues⟩ := early.attempts a mem
    obtain ⟨c, mem, continues'⟩ := later.attempts b mem
    exact ⟨c, mem, continues'.trans continues⟩
  events id := (early.events id).trans (later.events id)

end Store

namespace Acts

variable {faulty : Prop} {c : Call} {s s' : Store} {st st' : Stance} {x : Exchange}

theorem preserves (acts : Acts faulty c s st x st' s') (register : s.IsRegister) :
    s.Preserves s' where
  attempts a mem := by
    cases acts with
    | opens => exact ⟨a, List.mem_append_left _ mem, .refl a⟩
    | @moves d b state stored same pending =>
      refine ⟨_, Store.mem_attempts_setState.2 ⟨a, mem, rfl⟩, ?_⟩
      by_cases here : a.id = d.id
      · rw [if_pos here]
        refine ⟨rfl, ?_⟩
        intro settled
        rw [register.unique a mem b stored (here.trans same.symm)] at settled
        exact absurd (beq_iff_eq.1 pending) settled
      · rw [if_neg here]
        exact .refl a
    | _ => exact ⟨a, mem, .refl a⟩
  events _ := (acts.grows register).log.filter _

theorem isExclusive (acts : Acts faulty c s st x st' s') (register : s.IsRegister)
    (exclusive : s.IsExclusive) : s'.IsExclusive := by
  cases acts with
  | @opens d _ clock first second pending free fresh =>
    intro a ha b hb open_ open_' joins
    simp only [Store.attempts_withAttempt, List.mem_append, List.mem_singleton] at ha hb
    rcases ha with ha | rfl <;> rcases hb with hb | rfl
    · exact exclusive a ha b hb open_ open_' joins
    · have joins' : a.joins b.first b.second := Attempt.joins_of_joins joins a.joins_people
      exact absurd open_ (free a ha joins')
    · exact absurd open_' (free b hb joins)
    · rfl
  | @moves d e state stored same pending =>
    have before {a : Attempt} (mem : a ∈ s.attempts)
        (open_ : (if a.id = d.id then { a with state } else a).isPending) : a.isPending := by
      by_cases here : a.id = d.id
      · rwa [register.unique a mem e stored (here.trans same.symm)]
      · rwa [if_neg here] at open_
    intro a ha b hb open_ open_' joins
    obtain ⟨a, stored, rfl⟩ := Store.mem_attempts_setState.1 ha
    obtain ⟨b, stored', rfl⟩ := Store.mem_attempts_setState.1 hb
    have joins' : b.joins a.first a.second := by
      by_cases here : a.id = d.id <;> by_cases here' : b.id = d.id <;>
        simpa [Attempt.joins, here, here'] using joins
    rw [exclusive a stored b stored' (before stored open_) (before stored' open_') joins']
  | _ => exact exclusive

end Acts

namespace Traffic

variable {ruler : Geo.Ruler} {rules : Rules} {t t' : Traffic}

theorem Sound.preserves_step (sound : t.Sound) (step : Step ruler rules t t') :
    t.store.Preserves t'.store := by
  cases sound.abides.shift step with
  | starts => exact .refl _
  | turns turn => exact turn.acts.preserves sound.register
  | drops => exact .refl _

theorem Sound.preserves (sound : t.Sound) (reaches : Reaches ruler rules t t') :
    t.store.Preserves t'.store :=
  sound.keeps (P := fun t' => t.store.Preserves t'.store) reaches (.refl _)
    fun sound preserved step => preserved.trans (sound.preserves_step step)

theorem Sound.isExclusive_step (sound : t.Sound) (exclusive : t.store.IsExclusive)
    (step : Step ruler rules t t') : t'.store.IsExclusive := by
  cases sound.abides.shift step with
  | starts => exact exclusive
  | turns turn => exact turn.acts.isExclusive sound.register exclusive
  | drops => exact exclusive

theorem Reaches.isExclusive {s : Store} (reaches : Reaches ruler rules (opening s) t)
    (fresh : s.IsFresh) : t.store.IsExclusive := by
  refine (Sound.opening fresh).keeps (P := fun t => t.store.IsExclusive) reaches ?_
    fun sound exclusive step => sound.isExclusive_step exclusive step
  intro a mem
  simp [opening, fresh.attempts] at mem

structure OneHistory (ruler : Geo.Ruler) (t : Traffic) : Prop where
  exclusive : t.store.IsExclusive
  identified : ∀ a ∈ t.store.attempts, ∀ b ∈ t.store.attempts, a.id = b.id → a = b
  distinct : ∀ a ∈ t.store.attempts, a.first ≠ a.second
  /-- Wherever steps lead from here, what is recorded stays so. -/
  preserved : ∀ t', Reaches ruler .any t t' → t.store.Preserves t'.store

/-- In all traffic, however calls overlap, fail or stop, at most one attempt of two users is pending
at a time, the two are different, and every later store keeps all attempts and events of an earlier
one. -/
theorem one_history_per_pair {ruler : Geo.Ruler} {s : Store} {t : Traffic} (fresh : s.IsFresh)
    (reaches : Reaches ruler .any (opening s) t) : t.OneHistory ruler := by
  have sound := Reaches.sound reaches fresh
  exact {
    exclusive := Reaches.isExclusive reaches fresh
    identified := sound.register.unique
    distinct := sound.register.distinct
    preserved := fun _ later => sound.preserves later }

/-- Users 1 and 2 both ask for a partner and pick each other before either has opened an attempt.
The second one to open it is refused and picks again, in vain; the call of the first one is
dropped. -/
def rivals : Traffic :=
  (Scene.village (fun _ _ => true) true).perform (opening (Store.village [1, 2])) <|
    [.start (.next 1 ⟨1⟩), .start (.next 1 ⟨2⟩)] ++
      (List.replicate 10 [.turn 0, .turn 1]).flatten ++ [.turn 0, .turn 1, .turn 0, .drop 0] ++
      turns 1

theorem one_history_per_pair_rivals :
    rivals.store.attempts.map Attempt.state = [.pending] ∧ rivals.store.story 1 = [.created] ∧
      rivals.isQuiet ∧ rivals.OneHistory fun _ _ => some 0 := by
  refine ⟨by decide +kernel, by decide +kernel, by decide +kernel, ?_⟩
  have reaches := Scene.reaches_perform (t := opening (Store.village [1, 2]))
    (Scene.village (fun _ _ => true) true) (Store.isNumbered_village [1, 2])
  exact one_history_per_pair (Store.isFresh_village [1, 2]) (reaches _).to_any

end Traffic
end Matchmaking
