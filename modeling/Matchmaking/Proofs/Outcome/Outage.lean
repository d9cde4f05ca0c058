import Matchmaking.Proofs.Engine.Failure
import Matchmaking.Proofs.Traffic.Schedule
/-! Outages while a call runs alone. What fails ends the call at once, but for notifications:
whether these are delivered changes nothing but the record of it. -/
namespace Matchmaking

def Surroundings.delivering (around : Surroundings) : Surroundings :=
  { around with notifierUp := true }

namespace Store

/-- The reply to a request that fails, and the store after it. Only a notification leaves a
trace. -/
def refuse (s : Store) (e : StoreError) : (r : Request) → r.Reply × Store
  | .notifyLiked u notice => s.notify false .liked u notice
  | .notifyMatch u notice => s.notify false .matched u notice
  | r => (r.refusal e, s)

/-- Requests answered from a store, but for those that fail: they are counted, and for each number
it is known whether that request fails. -/
def failing (around : Surroundings) (faults : Nat → Option StoreError) :
    Collaborators (Nat × Store)
  | (n, s), r =>
    let (reply, s) := (faults n).elim (s.serve around r) fun e => s.refuse e r
    (reply, n + 1, s)

/-- The store as if every notification had been delivered. -/
def asDelivered (s : Store) : Store :=
  { s with deliveries := s.deliveries.map fun d => { d with delivered := true } }

variable {around : Surroundings} {faults : Nat → Option StoreError} {n : Nat} {s : Store}
  {r : Request}

theorem createAttempt_asDelivered (s : Store) (u v : UserId) :
    s.asDelivered.createAttempt u v =
      ((s.createAttempt u v).1, (s.createAttempt u v).2.asDelivered) := by
  unfold createAttempt
  by_cases taken : s.attempts.any fun a => a.joins u v && a.isPending
  · rw [if_pos taken]
    exact if_pos taken
  · rw [if_neg taken]
    exact if_neg taken

theorem finishAttempt_asDelivered (s : Store) (id : AttemptId) (state : State) :
    s.asDelivered.finishAttempt id state =
      ((s.finishAttempt id state).1, (s.finishAttempt id state).2.asDelivered) := by
  unfold finishAttempt
  by_cases pending : (s.attempt? id).any Attempt.isPending
  · rw [if_pos pending]
    exact if_pos pending
  · rw [if_neg pending]
    exact if_neg pending

theorem serve_asDelivered (silent : ¬r.isNotice) (around : Surroundings) (s : Store) :
    s.asDelivered.serve around.delivering r =
      ((s.serve around r).1, (s.serve around r).2.asDelivered) := by
  cases r with
  | createAttempt u v => exact s.createAttempt_asDelivered u v
  | finishAttempt id state => exact s.finishAttempt_asDelivered id state
  | notifyLiked u notice => exact absurd rfl silent
  | notifyMatch u notice => exact absurd rfl silent
  | _ => rfl

theorem asDelivered_failing_of_notice (notice : r.isNotice) :
    (failing around faults (n, s) r).2.2.asDelivered =
      (s.asDelivered.serve around.delivering r).2 := by
  cases r with
  | notifyLiked | notifyMatch =>
    cases fault : faults n <;>
      simp [failing, fault, refuse, serve, notify, asDelivered, recordDelivery,
        Surroundings.delivering]
  | _ => cases notice

end Store

namespace Program

variable {α : Type} {p : Program α}

/-- The program goes on alike whether or not its notifications are delivered. -/
def Indifferent : Program α → Prop
  | done _ => True
  | fail _ => True
  | call r k =>
    (r.isNotice → ∀ reply reply', k reply = k reply') ∧ ∀ reply, (k reply).Indifferent

theorem Heeds.indifferent {Q : Bool → α → Prop} {b : Bool} (heeds : p.Heeds {} Q b) :
    p.Indifferent := by
  induction p generalizing b with
  | done a => exact trivial
  | fail e => exact trivial
  | call r k ih =>
    refine ⟨heeds.2.1, fun reply => ?_⟩
    have after := heeds.2.2 reply fun _ _ => trivial
    split at after
    · rw [after]
      exact trivial
    · exact ih reply after

open Store in
/-- While only notifications fail, such a program asks and ends as if all were delivered. -/
theorem Indifferent.among_failing (indifferent : p.Indifferent) (around : Surroundings)
    (faults : Nat → Option StoreError) (n : Nat) (s : Store)
    (notices : ∀ i x, (p.among (failing around faults) (n, s)).said[i]? = some x →
      faults (n + i) ≠ none → x.request.isNotice) :
    let run := p.among (failing around faults) (n, s)
    let calm := p.among (Store.serve around.delivering) s.asDelivered
    run.result = calm.result ∧ run.said.map Exchange.request = calm.said.map Exchange.request ∧
      run.state.2.asDelivered = calm.state := by
  induction p generalizing n s with
  | done a => exact ⟨rfl, rfl, rfl⟩
  | fail e => exact ⟨rfl, rfl, rfl⟩
  | call r k ih =>
    have later (i : Nat) (x : Exchange)
        (found : ((k (failing around faults (n, s) r).1).among (failing around faults)
          (n + 1, (failing around faults (n, s) r).2.2)).said[i]? = some x)
        (fault : faults (n + 1 + i) ≠ none) : x.request.isNotice := by
      refine notices (i + 1) x found ?_
      rwa [← Nat.add_assoc, Nat.add_right_comm]
    have step : (k (failing around faults (n, s) r).1) =
          k (s.asDelivered.serve around.delivering r).1 ∧
        (failing around faults (n, s) r).2.2.asDelivered =
          (s.asDelivered.serve around.delivering r).2 := by
      by_cases notice : r.isNotice
      · exact ⟨indifferent.1 notice _ _, asDelivered_failing_of_notice notice⟩
      · have sound : faults n = none :=
          Classical.byContradiction fun fault => notice (notices 0 _ rfl fault)
        rw [serve_asDelivered notice]
        simp [failing, sound]
    obtain ⟨result, said, state⟩ := ih _ (indifferent.2 _) (n + 1) _ later
    simp only [result_among_call, said_among_call, state_among_call, List.map_cons]
    rw [← step.1, ← step.2]
    exact ⟨result, congrArg (r :: ·) said, state⟩

end Program

/-- With any collaborators, a failure that a call does not reckon with ends it at once, with an
internal error that names the step and keeps the failure. If nothing fails but notifications, then
over any store the call asks, ends and leaves the store as if they had been delivered. -/
theorem Call.surfaces_failures (c : Call) (ruler : Geo.Ruler) :
    (∀ (σ : Type) (collaborators : Collaborators σ) (start : σ) (before after : List Exchange)
        (x : Exchange) (e : StoreError),
      let run := (c.program ruler).among collaborators start
      run.said = before ++ x :: after → x.failure? = some e → ¬x.request.reckonsWith e →
        after = [] ∧
          run.result = .error (.internal (x.request.step (isChoosing before)) (.store e))) ∧
    ∀ (s : Store) (around : Surroundings) (faults : Nat → Option StoreError),
      let run := (c.program ruler).among (Store.failing around faults) (0, s)
      let calm := (c.program ruler).among (Store.failing around.delivering fun _ => none) (0, s)
      (∀ n x, run.said[n]? = some x → faults n ≠ none → x.request.isNotice) →
        run.result = calm.result ∧
        run.said.map Exchange.request = calm.said.map Exchange.request ∧
        run.state.2.asDelivered = calm.state.2.asDelivered := by
  refine ⟨?_, ?_⟩
  · intro σ collaborators start before after x e run said failed unreckoned
    have goes := Program.goes_among collaborators start (c.program ruler)
    rw [said] at goes
    exact (c.heeds ruler).stops goes failed unreckoned
  · intro s around faults run calm notices
    have indifferent := (c.heeds ruler).indifferent
    have faulty := indifferent.among_failing around faults 0 s fun n x found fault =>
      notices n x found (by rwa [Nat.zero_add] at fault)
    have sound := indifferent.among_failing around.delivering (fun _ => none) 0 s
      fun _ _ _ fault => absurd rfl fault
    exact ⟨faulty.1.trans sound.1.symm, faulty.2.1.trans sound.2.1.symm,
      faulty.2.2.trans sound.2.2.symm⟩

def Store.neighbours : Store :=
  ((village [1, 2]).addAttempt 1 2 .pending ⟨0, 0⟩).2.appendEvents 1 [.created, .shownToFirst]

def outageAt (n : Nat) : Nat → Option StoreError :=
  fun i => if i = n then some (.backend "down") else none

/-- A like ends with the profile that cannot be read, but succeeds where no notification is
delivered. -/
theorem Call.surfaces_failures_of_like :
    let like := (Call.swipe ⟨1⟩ 2 .like).program fun _ _ => some 0
    let run (n : Nat) := like.among (Store.failing { photoBase := "" } (outageAt n))
      (0, Store.neighbours)
    (∃ before, (run 3).said = before ++ [⟨.profile 1, .error (.backend "down")⟩] ∧
      (run 3).result = .error (.internal ((Request.profile 1).step (isChoosing before))
        (.store (.backend "down")))) ∧
    (run 5).result = (run 9).result := by
  intro like run
  have surfaces := Call.surfaces_failures (.swipe ⟨1⟩ 2 .like) fun _ _ => some 0
  refine ⟨⟨(run 3).said.take 3, rfl, ?_⟩, ?_⟩
  · exact (surfaces.1 _ (Store.failing { photoBase := "" } (outageAt 3)) (0, Store.neighbours) _ []
      ⟨.profile 1, .error (.backend "down")⟩ (.backend "down") rfl rfl (by decide)).2
  · refine (surfaces.2 Store.neighbours { photoBase := "" } (outageAt 5) ?_).1.trans rfl
    intro n x found fault
    by_cases last : n = 5
    · subst last
      cases (rfl : (run 5).said[5]? = some ⟨.notifyLiked 2 ⟨"", ""⟩, false⟩).symm.trans found
      rfl
    · exact absurd (if_neg last) fault

end Matchmaking
