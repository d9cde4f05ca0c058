import Matchmaking.Engine.Program
/-! Protocols: which request a call may make next, given where it stands, and where a reply leads
it. A program keeps a protocol when it does so for every reply it may get; what holds at its end is
part of the statement, so that programs are put together as their protocols are. -/
namespace Matchmaking

/-- What a call may ask, over positions of a type. -/
structure Protocol (σ : Type) where
  permits : σ → Request → Prop
  /-- The replies that have to be reckoned with. -/
  honest : (r : Request) → r.Reply → Prop
  next : σ → (r : Request) → r.Reply → σ
  /-- A call may fail here. -/
  settled : σ → Prop

structure Exchange where
  request : Request
  reply : request.Reply

namespace Protocol

def after {σ : Type} (P : Protocol σ) (pos : σ) (said : List Exchange) : σ :=
  said.foldl (fun pos x => P.next pos x.request x.reply) pos

variable {σ : Type} (P : Protocol σ)

@[simp] theorem after_nil (pos : σ) : P.after pos [] = pos := rfl

@[simp] theorem after_append_singleton (pos : σ) (said : List Exchange) (x : Exchange) :
    P.after pos (said ++ [x]) = P.next (P.after pos said) x.request x.reply := by
  simp [after]

end Protocol

namespace Program

variable {σ α β : Type} {P : Protocol σ} {Q : σ → α → Prop} {R : σ → β → Prop} {pos : σ}

/-- From a position, the program keeps the protocol and ends with that relation of its last
position to its value. -/
def Keeps (P : Protocol σ) (Q : σ → α → Prop) : σ → Program α → Prop
  | pos, done a => Q pos a
  | pos, fail _ => P.settled pos
  | pos, call r k =>
    P.permits pos r ∧ ∀ reply, P.honest r reply → Keeps P Q (P.next pos r reply) (k reply)

@[simp] theorem keeps_done {a : α} : Keeps P Q pos (done a) ↔ Q pos a := Iff.rfl

@[simp] theorem keeps_fail {e : MatchError} :
    Keeps P Q pos (fail e : Program α) ↔ P.settled pos := Iff.rfl

theorem keeps_call {r : Request} {k : r.Reply → Program α} :
    Keeps P Q pos (call r k) ↔
      P.permits pos r ∧ ∀ reply, P.honest r reply → Keeps P Q (P.next pos r reply) (k reply) :=
  Iff.rfl

theorem Keeps.bind {p : Program α} {f : α → Program β} (first : Keeps P Q pos p)
    (rest : ∀ pos a, Q pos a → Keeps P R pos (f a)) : Keeps P R pos (p >>= f) := by
  induction p generalizing pos with
  | done a => exact rest pos a first
  | fail e => exact first
  | call r k ih =>
    refine ⟨first.1, ?_⟩
    intro reply honest
    exact ih reply (first.2 reply honest)

theorem keeps_expect {γ : Type} {context : String} {reply : Except StoreError γ}
    {f : γ → Program α} (failed : ∀ e, reply = .error e → P.settled pos)
    (ok : ∀ c, reply = .ok c → Keeps P Q pos (f c)) :
    Keeps P Q pos (expect context reply >>= f) := by
  cases reply with
  | error e => exact failed e rfl
  | ok c => exact ok c rfl

section Ending

variable {E : σ → Except MatchError α → Prop} {F : σ → Except MatchError β → Prop}

/-- From a position, the program keeps the protocol and ends with that relation of its last
position to its value or its error. -/
def Ends (P : Protocol σ) (E : σ → Except MatchError α → Prop) : σ → Program α → Prop
  | pos, done a => E pos (.ok a)
  | pos, fail e => E pos (.error e)
  | pos, call r k =>
    P.permits pos r ∧ ∀ reply, P.honest r reply → Ends P E (P.next pos r reply) (k reply)

theorem Ends.bind {p : Program α} {f : α → Program β} (first : Ends P E pos p)
    (ok : ∀ pos a, E pos (.ok a) → Ends P F pos (f a))
    (error : ∀ pos e, E pos (.error e) → F pos (.error e)) : Ends P F pos (p >>= f) := by
  induction p generalizing pos with
  | done a => exact ok pos a first
  | fail e => exact error pos e first
  | call r k ih =>
    refine ⟨first.1, ?_⟩
    intro reply honest
    exact ih reply (first.2 reply honest)

/-- What holds at the end of a part that surely leads to a position, with that value. -/
def brings (here : σ) (a : α) : σ → Except MatchError α → Prop :=
  fun pos result => pos = here ∧ result = .ok a

theorem Ends.go_on {here : σ} {a : α} {p : Program α} {f : α → Program β}
    (first : Ends P (brings here a) pos p) (rest : Ends P F here (f a)) :
    Ends P F pos (p >>= f) := by
  refine first.bind ?_ ?_
  · intro pos b brought
    obtain ⟨rfl, same⟩ := brought
    cases same
    exact rest
  · intro pos e brought
    cases brought.2

end Ending

end Program
end Matchmaking
