import Matchmaking.Proofs.Engine.Transcript
/-! How calls fail. A collaborator that fails ends the call at once, with an error that names the
step in which it was asked; while nothing fails, a call ends badly only for reasons of its own. -/
namespace Matchmaking

def Exchange.failure? (x : Exchange) : Option StoreError := x.request.failure? x.reply

def isChoosing (said : List Exchange) : Bool :=
  said.foldl (fun choosing x => x.request.choosing choosing) false

def MatchError.isInternal : MatchError → Bool
  | internal _ _ => true
  | _ => false

namespace Request

variable {r : Request} {reply : r.Reply} {b : Bool}

theorem isInternal_of_alarm {error : MatchError} (raised : r.alarm? b reply = some error) :
    error.isInternal := by
  unfold alarm? at raised
  split at raised
  · cases raised
  · split at raised
    · cases raised
    · cases raised
      rfl

theorem alarm_of_failure {e : StoreError} (failed : r.failure? reply = some e)
    (unreckoned : ¬r.reckonsWith e) :
    r.alarm? b reply = some (.internal (r.step b) (.store e)) := by
  simp [alarm?, failed, unreckoned]

end Request

/-- What a program that keeps the law may come to: such a value, an error of its own, or an internal
one. -/
def Law.Allows {α : Type} (law : Law) (Q : Bool → α → Prop) : Except MatchError α → Prop
  | .ok a => ∃ c, Q c a
  | .error e => law.fails e ∨ e.isInternal

namespace Program

variable {α : Type} {law : Law} {Q : Bool → α → Prop} {b : Bool} {p : Program α}
  {said before after : List Exchange} {result : Except MatchError α} {error : MatchError}

theorem Heeds.comes_to (heeds : p.Heeds law Q b) (goes : p.Goes said result)
    (told : ∀ x ∈ said, ∀ profile ∈ x.profile?, law.told profile) : law.Allows Q result := by
  induction goes generalizing b with
  | done a => exact ⟨b, heeds⟩
  | fail e => exact Or.inl heeds
  | call rest ih =>
    obtain ⟨here, told⟩ := List.forall_mem_cons.1 told
    have after := heeds.2.2 _ here
    split at after
    · next error raised =>
      rw [after] at rest
      rw [rest.of_fail.2]
      exact Or.inr (Request.isInternal_of_alarm raised)
    · exact ih after told

theorem Heeds.asks_of_goes (heeds : p.Heeds law Q b) (goes : p.Goes said result)
    (told : ∀ x ∈ said, ∀ profile ∈ x.profile?, law.told profile) :
    ∀ x ∈ said, law.asks x.request := by
  induction goes generalizing b with
  | done a => exact List.forall_mem_nil _
  | fail e => exact List.forall_mem_nil _
  | call rest ih =>
    obtain ⟨here, told⟩ := List.forall_mem_cons.1 told
    refine List.forall_mem_cons.2 ⟨heeds.1, ?_⟩
    have after := heeds.2.2 _ here
    split at after
    · rw [after] at rest
      rw [rest.of_fail.1]
      exact List.forall_mem_nil _
    · exact ih after told

theorem Heeds.value_of_goes {a : α} (heeds : p.Heeds law Q b) (goes : p.Goes said (.ok a))
    (told : ∀ x ∈ said, ∀ profile ∈ x.profile?, law.told profile) : ∃ c, Q c a :=
  heeds.comes_to goes told

theorem Heeds.error_of_goes {O : MatchError → Prop} (heeds : p.Heeds { fails := O } Q b)
    (goes : p.Goes said (.error error)) : O error ∨ error.isInternal :=
  heeds.comes_to goes fun _ _ _ _ => trivial

/-- After a failure nothing is asked for, and the error tells in which step it came. -/
theorem Heeds.stops {x : Exchange} {e : StoreError} (heeds : p.Heeds {} Q b)
    (goes : p.Goes (before ++ x :: after) result) (failed : x.failure? = some e)
    (unreckoned : ¬x.request.reckonsWith e) :
    after = [] ∧ result = .error (.internal
      (x.request.step (before.foldl (fun choosing x => x.request.choosing choosing) b))
      (.store e)) := by
  induction before generalizing p b with
  | nil =>
    cases goes with
    | @call r k reply _ _ rest =>
      have ended := heeds.2.2 reply fun _ _ => trivial
      rw [Request.alarm_of_failure failed unreckoned] at ended
      rw [ended] at rest
      exact rest.of_fail
  | cons y before ih =>
    cases goes with
    | @call r k reply _ _ rest =>
      have here := heeds.2.2 reply fun _ _ => trivial
      split at here
      · rw [here] at rest
        cases List.append_eq_nil_iff.1 rest.of_fail.1 |>.2
      · exact ih here rest

end Program
end Matchmaking
