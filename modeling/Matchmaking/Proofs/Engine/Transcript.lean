import Matchmaking.Proofs.Engine.Requests
/-! Transcripts of programs: what a program asks and what it is told, up to its end. Nothing is
assumed of the replies, so that what holds of every transcript holds whatever the collaborators are
like. -/
namespace Matchmaking

/-- Collaborators that reply as they like, by a state of their own. -/
abbrev Collaborators (σ : Type) := σ → (r : Request) → r.Reply × σ

structure Report (σ α : Type) where
  said : List Exchange
  result : Except MatchError α
  /-- The state that the collaborators are left in. -/
  state : σ

namespace Program

def among {σ α : Type} (collaborators : Collaborators σ) : σ → Program α → Report σ α
  | x, .done a => ⟨[], .ok a, x⟩
  | x, .fail e => ⟨[], .error e, x⟩
  | x, .call r k =>
    let (reply, x) := collaborators x r
    let rest := (k reply).among collaborators x
    { rest with said := ⟨r, reply⟩ :: rest.said }

variable {σ α β : Type} {p : Program α} {f : α → Program β} {said : List Exchange}
  {result : Except MatchError α} {result' : Except MatchError β}

section Calls

variable (collaborators : Collaborators σ) (x : σ) (r : Request) (k : r.Reply → Program α)

@[simp] theorem said_among_call :
    ((call r k).among collaborators x).said =
      ⟨r, (collaborators x r).1⟩ ::
        ((k (collaborators x r).1).among collaborators (collaborators x r).2).said := rfl

@[simp] theorem result_among_call :
    ((call r k).among collaborators x).result =
      ((k (collaborators x r).1).among collaborators (collaborators x r).2).result := rfl

@[simp] theorem state_among_call :
    ((call r k).among collaborators x).state =
      ((k (collaborators x r).1).among collaborators (collaborators x r).2).state := rfl

end Calls

/-- With these exchanges, one after the other, the program comes to that end. -/
inductive Goes {α : Type} : Program α → List Exchange → Except MatchError α → Prop
  | done (a : α) : Goes (.done a) [] (.ok a)
  | fail (e : MatchError) : Goes (.fail e) [] (.error e)
  | call {r : Request} {k : r.Reply → Program α} {reply : r.Reply} {said : List Exchange}
      {result : Except MatchError α} (rest : Goes (k reply) said result) :
      Goes (.call r k) (⟨r, reply⟩ :: said) result

namespace Goes

theorem of_done {a : α} (goes : (Program.done a).Goes said result) :
    said = [] ∧ result = .ok a := by
  cases goes
  exact ⟨rfl, rfl⟩

theorem of_fail {e : MatchError} (goes : (Program.fail e : Program α).Goes said result) :
    said = [] ∧ result = .error e := by
  cases goes
  exact ⟨rfl, rfl⟩

theorem of_call {r : Request} {k : r.Reply → Program α}
    (goes : (Program.call r k).Goes said result) :
    ∃ reply after, said = ⟨r, reply⟩ :: after ∧ (k reply).Goes after result := by
  cases goes with
  | call rest => exact ⟨_, _, rfl, rest⟩

theorem of_bind (goes : (p >>= f).Goes said result') :
    (∃ before a after, said = before ++ after ∧ p.Goes before (.ok a) ∧
        (f a).Goes after result') ∨
      ∃ e, p.Goes said (.error e) ∧ result' = .error e := by
  induction p generalizing said with
  | done a => exact Or.inl ⟨[], a, said, rfl, .done a, goes⟩
  | fail e =>
    obtain ⟨rfl, failed⟩ := goes.of_fail
    exact Or.inr ⟨e, .fail e, failed⟩
  | call r k ih =>
    obtain ⟨reply, after, rfl, rest⟩ := goes.of_call
    rcases ih reply rest with ⟨before, a, after, rfl, first, second⟩ | ⟨e, first, failed⟩
    · exact Or.inl ⟨⟨r, reply⟩ :: before, a, after, rfl, .call first, second⟩
    · exact Or.inr ⟨e, .call first, failed⟩

end Goes

theorem goes_among (collaborators : Collaborators σ) (x : σ) (p : Program α) :
    p.Goes (p.among collaborators x).said (p.among collaborators x).result := by
  induction p generalizing x with
  | done a => exact .done a
  | fail e => exact .fail e
  | call r k ih => exact .call (ih _ _)

theorem Makes.of_goes {ok : Request → Prop} {Q : α → Prop} (makes : p.Makes ok Q)
    (goes : p.Goes said result) : (∀ x ∈ said, ok x.request) ∧ ∀ a, result = .ok a → Q a := by
  induction goes with
  | done a =>
    refine ⟨by simp, ?_⟩
    intro b same
    cases same
    exact makes
  | fail e => exact ⟨by simp, nofun⟩
  | call _ ih =>
    obtain ⟨rest, value⟩ := ih (makes.2 _)
    exact ⟨List.forall_mem_cons.2 ⟨makes.1, rest⟩, value⟩

section Protocols

variable {P : Protocol σ} {E : σ → Except MatchError α → Prop} {pos : σ}

theorem Ends.of_goes (ends : p.Ends P E pos)
    (honest : ∀ x ∈ said, P.honest x.request x.reply) (goes : p.Goes said result) :
    E (P.after pos said) result := by
  induction goes generalizing pos with
  | done a => exact ends
  | fail e => exact ends
  | call _ ih =>
    obtain ⟨here, rest⟩ := List.forall_mem_cons.1 honest
    exact ih (ends.2 _ here) rest

theorem Ends.permits_of_goes {before after : List Exchange} {x : Exchange} (ends : p.Ends P E pos)
    (honest : ∀ y ∈ before, P.honest y.request y.reply)
    (goes : p.Goes (before ++ x :: after) result) : P.permits (P.after pos before) x.request := by
  induction before generalizing p pos with
  | nil =>
    cases goes
    exact ends.1
  | cons y before ih =>
    obtain ⟨here, rest⟩ := List.forall_mem_cons.1 honest
    cases goes with
    | call goes => exact ih (ends.2 _ here) rest goes

end Protocols

end Program
end Matchmaking
