import Matchmaking.Proofs.Http.Guard
import Matchmaking.Proofs.Outcome.Outage
import Mathlib.Data.Option.Defs
/-! What callers learn of faults. A fault of a collaborator ends a call wherever it comes, and its
text goes no further than the error that the call ends in; an answer is made from that error
without the text. So two runs in which the same requests fail, be it with other texts, look alike
from the outside. -/
namespace Matchmaking

def StoreError.isFault : StoreError → Bool
  | malformed _ | backend _ => true
  | pendingConflict _ _ | notPending _ => false

/-- The same failure, or one fault in place of another. -/
inductive StoreError.Resembles : StoreError → StoreError → Prop
  | same (e : StoreError) : Resembles e e
  | faults {e e' : StoreError} (isFault : e.isFault) (isFault' : e'.isFault) : Resembles e e'

theorem Request.not_reckonsWith_of_isFault (r : Request) {e : StoreError} (isFault : e.isFault) :
    ¬r.reckonsWith e := by
  cases e with
  | malformed | backend => cases r <;> exact Bool.false_ne_true
  | pendingConflict | notPending => cases isFault

inductive Request.Alike (r : Request) : r.Reply → r.Reply → Prop
  | same (reply : r.Reply) : Alike r reply reply
  | faults {reply reply' : r.Reply} {e e' : StoreError} (told : r.failure? reply = some e)
      (told' : r.failure? reply' = some e') (isFault : e.isFault) (isFault' : e'.isFault) :
      Alike r reply reply'

/-- Collaborators that do the same and differ at most in what their faults say. -/
def Twins {σ : Type} (collaborators collaborators' : Collaborators σ) : Prop :=
  ∀ x r, r.Alike (collaborators x r).1 (collaborators' x r).1 ∧
    (collaborators x r).2 = (collaborators' x r).2

theorem Store.alike_refuse (s : Store) (r : Request) {e e' : StoreError}
    (resembles : e.Resembles e') :
    r.Alike (s.refuse e r).1 (s.refuse e' r).1 ∧ (s.refuse e r).2 = (s.refuse e' r).2 := by
  cases resembles with
  | same => exact ⟨.same _, rfl⟩
  | faults isFault isFault' =>
    cases r with
    | notifyLiked | notifyMatch | index | health => exact ⟨.same _, rfl⟩
    | _ => exact ⟨.faults rfl rfl isFault isFault', rfl⟩

theorem Store.twins_failing (around : Surroundings) {faults faults' : Nat → Option StoreError}
    (resemble : ∀ n, Option.Rel StoreError.Resembles (faults n) (faults' n)) :
    Twins (failing around faults) (failing around faults') := by
  rintro ⟨n, s⟩ r
  have here := resemble n
  dsimp only [failing]
  generalize faults n = fault, faults' n = fault' at here ⊢
  cases here with
  | none => exact ⟨.same _, rfl⟩
  | some resembles =>
    obtain ⟨alike, state⟩ := s.alike_refuse r resembles
    exact ⟨alike, congrArg (n + 1, ·) state⟩

inductive EndsAlike {α : Type} : Except MatchError α → Except MatchError α → Prop
  | same (result : Except MatchError α) : EndsAlike result result
  | internal (context : String) (cause cause' : Cause) :
      EndsAlike (.error (.internal context cause)) (.error (.internal context cause'))

structure Report.Alike {σ α : Type} (report report' : Report σ α) : Prop where
  asked : report.said.map Exchange.request = report'.said.map Exchange.request
  result : EndsAlike report.result report'.result
  state : report.state = report'.state

namespace Program

variable {σ α : Type} {Q : Bool → α → Prop} {b : Bool}

theorem Heeds.eq_fail_of_fault {r : Request} {k : r.Reply → Program α} {reply : r.Reply}
    {e : StoreError} (heeds : (call r k).Heeds {} Q b) (told : r.failure? reply = some e)
    (isFault : e.isFault) : k reply = fail (.internal (r.step b) (.store e)) := by
  have after := heeds.2.2 reply fun _ _ => trivial
  rwa [Request.alarm_of_failure told (r.not_reckonsWith_of_isFault isFault)] at after

/-- Among twins, a program that is surely ended by what fails asks and does the same. -/
theorem Heeds.alike_among {collaborators collaborators' : Collaborators σ} {p : Program α}
    (heeds : p.Heeds {} Q b) (twins : Twins collaborators collaborators') (x : σ) :
    (p.among collaborators x).Alike (p.among collaborators' x) := by
  induction p generalizing b x with
  | done a => exact ⟨rfl, .same _, rfl⟩
  | fail e => exact ⟨rfl, .same _, rfl⟩
  | call r k ih =>
    obtain ⟨alike, state⟩ := twins x r
    suffices rest : ((k (collaborators x r).1).among collaborators (collaborators x r).2).Alike
        ((k (collaborators' x r).1).among collaborators' (collaborators' x r).2) from
      ⟨congrArg (r :: ·) rest.asked, rest.result, rest.state⟩
    rw [← state]
    generalize (collaborators x r).1 = reply, (collaborators' x r).1 = reply' at alike
    cases alike with
    | same =>
      have after := heeds.2.2 reply fun _ _ => trivial
      split at after
      · rw [after]
        exact ⟨rfl, .same _, rfl⟩
      · exact ih reply after _
    | faults told told' isFault isFault' =>
      rw [heeds.eq_fail_of_fault told isFault, heeds.eq_fail_of_fault told' isFault']
      exact ⟨rfl, .internal _ _ _, rfl⟩

end Program

namespace Http

theorem Action.heeds_program (action : Action) (retries : Nat) (now : Timestamp) :
    (action.program retries now).Heeds {} (fun _ _ => True) false := by
  cases entered : action.call? retries with
  | some c =>
    rw [action.program_of_call entered]
    exact (c.heeds Geo.ruler).bind fun _ _ _ => trivial
  | none =>
    cases action with
    | reply answer => exact trivial
    | health => exact ⟨trivial, nofun, fun _ _ => trivial⟩
    | next | swipe => cases entered

theorem Answer.ofEnd_eq_of_alike {result result' : Except MatchError Answer}
    (alike : EndsAlike result result') : ofEnd (some result) = ofEnd (some result') := by
  cases alike with
  | same => rfl
  | internal => rfl

/-- Whatever a request and the store are like and whichever requests to collaborators fail, the
texts of faults, and whether a fault is one of the backend or of a value, change neither the status
nor the body of the answer, nor what is asked of the collaborators, nor the store and the
notifications that are sent. -/
theorem faults_stay_hidden (framework : Framework)
    (callerOf : List Access.Header → Option UserId) (retries : Nat) (now : Timestamp) (r : Incoming)
    (around : Surroundings) (s : Store) (faults faults' : Nat → Option StoreError)
    (resemble : ∀ n, Option.Rel StoreError.Resembles (faults n) (faults' n)) :
    let run faults := ((r.action framework callerOf).program retries now).among
      (Store.failing around faults) (0, s)
    let answer faults := Answer.ofEnd (some (run faults).result)
    (answer faults).status = (answer faults').status ∧
    (answer faults).text = (answer faults').text ∧
    (run faults).state.2 = (run faults').state.2 ∧
    (run faults).said.map Exchange.request = (run faults').said.map Exchange.request := by
  intro run answer
  have heeds := (r.action framework callerOf).heeds_program retries now
  have alike := heeds.alike_among (Store.twins_failing around resemble) (0, s)
  have answered : answer faults = answer faults' := Answer.ofEnd_eq_of_alike alike.result
  exact ⟨congrArg Answer.status answered, congrArg Answer.text answered,
    congrArg Prod.snd alike.state, alike.asked⟩

/-- The like of the first neighbour fails at the profile for its notification, with one text or
another. -/
theorem faults_stay_hidden_of_like :
    let like : Incoming :=
      { method := "POST", path := "/api/v1/swipes"
        headers := [("Content-Type", "application/json")]
        body := Text.utf8 "\x7b\"candidateId\": 2, \"verdict\": \"like\"\x7d".toList }
    let faults (e : StoreError) (n : Nat) := if n = 3 then some e else none
    let run (e : StoreError) := ((like.action .plain fun _ => some 1).program 3 ⟨0, 0⟩).among
      (Store.failing { photoBase := "" } (faults e)) (0, Store.neighbours)
    let answer (e : StoreError) := Answer.ofEnd (some (run e).result)
    (run (.backend "down")).result.map Answer.status ≠
      (run (.malformed "text")).result.map Answer.status ∧
    (answer (.backend "down")).text = (answer (.malformed "text")).text ∧
    (answer (.backend "down")).status = 500 := by
  intro like faults run answer
  have hidden := faults_stay_hidden .plain (fun _ => some 1) 3 ⟨0, 0⟩ like { photoBase := "" }
    Store.neighbours (faults (.backend "down")) (faults (.malformed "text")) fun n => by
      by_cases here : n = 3
      · simpa [faults, here] using StoreError.Resembles.faults rfl rfl
      · simp [faults, here]
  exact ⟨by decide +kernel, hidden.2.1, by decide +kernel⟩

end Http
end Matchmaking
