import Matchmaking.Engine.Program
/-! Programs run by a keeper of a store. A keeper is known by the replies that it may give to each
request and by what is left then. `Runs` follows a program to its end, `Trails` also to where it is
cut off. -/
namespace Matchmaking

/-- The replies that a request may get, and what is left of the state then. -/
abbrev Keeper (σ : Type) := σ → (r : Request) → r.Reply → σ → Prop

namespace Keeper

variable {σ α β : Type} {keeper keeper' : Keeper σ} {faulty : Prop} {x x' : σ} {p : Program α}
  {f : α → Program β} {result : Except MatchError α} {result' : Except MatchError β}

/-- A program with the result that it ends with and the state that it leaves. -/
inductive Runs (keeper : Keeper σ) {α : Type} : σ → Program α → Except MatchError α → σ → Prop
  | done (x : σ) (a : α) : Runs keeper x (.done a) (.ok a) x
  | fail (x : σ) (e : MatchError) : Runs keeper x (.fail e) (.error e) x
  | call {x x₁ x' : σ} {r : Request} {k : r.Reply → Program α} {reply : r.Reply}
      {result : Except MatchError α} (served : keeper x r reply x₁)
      (rest : Runs keeper x₁ (k reply) result x') : Runs keeper x (.call r k) result x'

/-- A program with the result that it ends with, unless it is dropped, and the state that it leaves.
A request may also fail without effect, where that is allowed. -/
inductive Trails (keeper : Keeper σ) (faulty : Prop) {α : Type} :
    σ → Program α → Option (Except MatchError α) → σ → Prop
  | done (x : σ) (a : α) : Trails keeper faulty x (.done a) (some (.ok a)) x
  | fail (x : σ) (e : MatchError) : Trails keeper faulty x (.fail e) (some (.error e)) x
  | serves {x x₁ x' : σ} {r : Request} {k : r.Reply → Program α} {reply : r.Reply}
      {outcome : Option (Except MatchError α)} (served : keeper x r reply x₁)
      (rest : Trails keeper faulty x₁ (k reply) outcome x') :
      Trails keeper faulty x (.call r k) outcome x'
  | refuses {x x' : σ} {r : Request} {k : r.Reply → Program α}
      {outcome : Option (Except MatchError α)} (allowed : faulty) (e : StoreError)
      (rest : Trails keeper faulty x (k (r.refusal e)) outcome x') :
      Trails keeper faulty x (.call r k) outcome x'
  | drops (x : σ) (r : Request) (k : r.Reply → Program α) (allowed : faulty) :
      Trails keeper faulty x (.call r k) none x

/-- The call was cut off: it was dropped, or it has failed for a request that failed. -/
def IsCut (faulty : Prop) (outcome : Option (Except MatchError α)) : Prop :=
  faulty ∧ ∃ why : Option MatchError, outcome = why.map .error

theorem IsCut.not_ok {outcome : Option (Except MatchError α)} (cut : IsCut faulty outcome) {a : α} :
    outcome ≠ some (.ok a) := by
  obtain ⟨_, why, rfl⟩ := cut
  cases why <;> exact nofun

namespace Trails

variable {outcome : Option (Except MatchError α)} {outcome' : Option (Except MatchError β)}

theorem of_done {a : α} (trails : keeper.Trails faulty x (.done a) outcome x') :
    outcome = some (.ok a) ∧ x' = x := by
  cases trails
  exact ⟨rfl, rfl⟩

theorem of_fail {e : MatchError}
    (trails : keeper.Trails faulty x (.fail e : Program α) outcome x') :
    outcome = some (.error e) ∧ x' = x := by
  cases trails
  exact ⟨rfl, rfl⟩

theorem of_call {r : Request} {k : r.Reply → Program α}
    (trails : keeper.Trails faulty x (.call r k) outcome x') :
    (∃ reply x₁, keeper x r reply x₁ ∧ keeper.Trails faulty x₁ (k reply) outcome x') ∨
      (faulty ∧ ∃ e, keeper.Trails faulty x (k (r.refusal e)) outcome x') ∨
      (IsCut faulty outcome ∧ x' = x) := by
  cases trails with
  | serves served rest => exact Or.inl ⟨_, _, served, rest⟩
  | refuses allowed e rest => exact Or.inr (Or.inl ⟨allowed, e, rest⟩)
  | drops _ _ _ allowed => exact Or.inr (Or.inr ⟨⟨allowed, none, rfl⟩, rfl⟩)

theorem of_asking {r : Request} {k : r.Reply → Program α}
    (trails : keeper.Trails faulty x (.call r k) outcome x')
    (strict : ∀ e, ∃ err, k (r.refusal e) = .fail err) :
    (∃ reply x₁, keeper x r reply x₁ ∧ keeper.Trails faulty x₁ (k reply) outcome x') ∨
      (IsCut faulty outcome ∧ x' = x) := by
  rcases trails.of_call with served | ⟨allowed, e, rest⟩ | cut
  · exact Or.inl served
  · obtain ⟨err, failed⟩ := strict e
    rw [failed] at rest
    obtain ⟨rfl, same⟩ := rest.of_fail
    exact Or.inr ⟨⟨allowed, some err, rfl⟩, same⟩
  · exact Or.inr cut

/-- Either the first part ends well and the second one follows, or nothing comes after it. -/
theorem of_bind (trails : keeper.Trails faulty x (p >>= f) outcome' x') :
    (∃ a x₁, keeper.Trails faulty x p (some (.ok a)) x₁ ∧
        keeper.Trails faulty x₁ (f a) outcome' x') ∨
      ∃ why : Option MatchError, keeper.Trails faulty x p (why.map .error) x' ∧
        outcome' = why.map .error := by
  induction p generalizing x with
  | done a => exact Or.inl ⟨a, x, .done x a, trails⟩
  | fail e =>
    obtain ⟨failed, same⟩ := trails.of_fail
    rw [same]
    exact Or.inr ⟨some e, .fail x e, failed⟩
  | call r k ih =>
    cases trails with
    | serves served rest =>
      rcases ih _ rest with ⟨a, x₁, first, second⟩ | ⟨why, first, failed⟩
      · exact Or.inl ⟨a, x₁, .serves served first, second⟩
      · exact Or.inr ⟨why, .serves served first, failed⟩
    | refuses allowed e rest =>
      rcases ih _ rest with ⟨a, x₁, first, second⟩ | ⟨why, first, failed⟩
      · exact Or.inl ⟨a, x₁, .refuses allowed e first, second⟩
      · exact Or.inr ⟨why, .refuses allowed e first, failed⟩
    | drops _ _ _ allowed => exact Or.inr ⟨none, .drops _ _ _ allowed, rfl⟩

theorem of_bind_of_eq {a : α}
    (tells : ∀ {outcome x₁}, keeper.Trails faulty x p outcome x₁ →
      x₁ = x ∧ (outcome = some (.ok a) ∨ IsCut faulty outcome))
    (trails : keeper.Trails faulty x (p >>= f) outcome' x') :
    keeper.Trails faulty x (f a) outcome' x' ∨ (IsCut faulty outcome' ∧ x' = x) := by
  rcases trails.of_bind with ⟨b, x₁, first, second⟩ | ⟨why, first, rfl⟩
  · obtain ⟨rfl, told | cut⟩ := tells first
    · cases told
      exact Or.inl second
    · exact absurd rfl cut.not_ok
  · obtain ⟨same, told | cut⟩ := tells first
    · cases why <;> cases told
    · exact Or.inr ⟨⟨cut.1, why, rfl⟩, same⟩

theorem of_bind_done {g : α → β}
    (trails : keeper.Trails faulty x (p >>= fun a => .done (g a)) outcome' x') :
    ∃ outcome, keeper.Trails faulty x p outcome x' ∧ outcome' = outcome.map (Except.map g) := by
  rcases trails.of_bind with ⟨a, x₁, first, second⟩ | ⟨why, first, failed⟩
  · obtain ⟨told, rfl⟩ := second.of_done
    exact ⟨some (.ok a), first, told⟩
  · refine ⟨_, first, failed.trans ?_⟩
    cases why <;> rfl

theorem runs (sure : ¬faulty) (trails : keeper.Trails faulty x p outcome x') :
    ∃ result, outcome = some result ∧ keeper.Runs x p result x' := by
  induction trails with
  | done x a => exact ⟨_, rfl, .done x a⟩
  | fail x e => exact ⟨_, rfl, .fail x e⟩
  | serves served _ ih =>
    obtain ⟨result, told, rest⟩ := ih
    exact ⟨result, told, .call served rest⟩
  | refuses allowed => exact absurd allowed sure
  | drops _ _ _ allowed => exact absurd allowed sure

end Trails

namespace Runs

theorem trails (faulty : Prop) (runs : keeper.Runs x p result x') :
    keeper.Trails faulty x p (some result) x' := by
  induction runs with
  | done x a => exact .done x a
  | fail x e => exact .fail x e
  | call served _ ih => exact .serves served ih

theorem of_trails (trails : keeper.Trails False x p (some result) x') :
    keeper.Runs x p result x' := by
  obtain ⟨_, same, runs⟩ := trails.runs id
  rwa [Option.some.inj same]

theorem of_done {a : α} (runs : keeper.Runs x (.done a) result x') : result = .ok a ∧ x' = x := by
  cases runs
  exact ⟨rfl, rfl⟩

theorem of_fail {e : MatchError} (runs : keeper.Runs x (.fail e : Program α) result x') :
    result = .error e ∧ x' = x := by
  cases runs
  exact ⟨rfl, rfl⟩

theorem of_call {r : Request} {k : r.Reply → Program α}
    (runs : keeper.Runs x (.call r k) result x') :
    ∃ reply x₁, keeper x r reply x₁ ∧ keeper.Runs x₁ (k reply) result x' := by
  cases runs with
  | call served rest => exact ⟨_, _, served, rest⟩

theorem of_bind (runs : keeper.Runs x (p >>= f) result' x') :
    (∃ a x₁, keeper.Runs x p (.ok a) x₁ ∧ keeper.Runs x₁ (f a) result' x') ∨
      ∃ e, keeper.Runs x p (.error e) x' ∧ result' = .error e := by
  rcases (runs.trails False).of_bind with
    ⟨a, x₁, first, second⟩ | ⟨_ | e, first, failed⟩
  · exact Or.inl ⟨a, x₁, of_trails first, of_trails second⟩
  · cases failed
  · exact Or.inr ⟨e, of_trails first, Option.some.inj failed⟩

theorem of_bind_done {g : α → β} (runs : keeper.Runs x (p >>= fun a => .done (g a)) result' x') :
    ∃ result, keeper.Runs x p result x' ∧ result' = result.map g := by
  rcases runs.of_bind with ⟨a, x₁, first, second⟩ | ⟨e, first, failed⟩
  · obtain ⟨told, rfl⟩ := second.of_done
    exact ⟨.ok a, first, told⟩
  · exact ⟨.error e, first, failed⟩

theorem of_bind_of_ok {P : α → σ → Prop}
    (ends : ∀ {result x₁}, keeper.Runs x p result x₁ → ∃ a, result = .ok a ∧ P a x₁)
    (runs : keeper.Runs x (p >>= f) result' x') :
    ∃ a x₁, P a x₁ ∧ keeper.Runs x₁ (f a) result' x' := by
  rcases runs.of_bind with ⟨a, x₁, first, second⟩ | ⟨e, first, _⟩
  · obtain ⟨a', same, holds⟩ := ends first
    cases same
    exact ⟨a, x₁, holds, second⟩
  · obtain ⟨a, same, _⟩ := ends first
    cases same

theorem mono (looser : ∀ {x r reply x'}, keeper x r reply x' → keeper' x r reply x')
    (runs : keeper.Runs x p result x') : keeper'.Runs x p result x' := by
  induction runs with
  | done x a => exact .done x a
  | fail x e => exact .fail x e
  | call served _ ih => exact .call (looser served) ih

end Runs

theorem exists_runs (total : ∀ x r, ∃ reply x', keeper x r reply x') (x : σ) (p : Program α) :
    ∃ result x', keeper.Runs x p result x' := by
  induction p generalizing x with
  | done a => exact ⟨_, _, .done x a⟩
  | fail e => exact ⟨_, _, .fail x e⟩
  | call r k ih =>
    obtain ⟨reply, x₁, served⟩ := total x r
    obtain ⟨result, x', rest⟩ := ih reply x₁
    exact ⟨result, x', .call served rest⟩

/-- Every request has a reply, and every result with the state that is left then is so. -/
structure Ensures (keeper : Keeper σ) (x : σ) (p : Program α)
    (Q : Except MatchError α → σ → Prop) : Prop where
  ends : ∃ result x', keeper.Runs x p result x'
  all : ∀ {result x'}, keeper.Runs x p result x' → Q result x'

end Keeper
end Matchmaking
