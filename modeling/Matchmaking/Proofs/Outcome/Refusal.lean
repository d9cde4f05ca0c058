import Matchmaking.Proofs.Engine.Keeper
import Matchmaking.Proofs.Engine.Reselection
import Matchmaking.Proofs.Traffic.Schedule
/-! Calls that are refused: `unauthenticated`, `incompleteProfile`, `noCandidates` and
`noPendingAttempt`. Whatever fails on the way, a refusal leaves the store as it was. -/
namespace Matchmaking

def StoreError.isBreakdown : StoreError → Bool
  | malformed _ | backend _ => true
  | _ => false

def MatchError.isRefusal : MatchError → Bool
  | unauthenticated | incompleteProfile | noCandidates | noPendingAttempt _ _ => true
  | _ => false

theorem MatchError.not_isInternal_of_isRefusal {e : MatchError} (refused : e.isRefusal) :
    ¬e.isInternal := by
  cases e <;> first | exact Bool.false_ne_true | cases refused

def Request.isConflict : (r : Request) → r.Reply → Bool
  | createAttempt _ _, .error (.pendingConflict _ _) => true
  | _, _ => false

def Exchange.IsHarmless (x : Exchange) : Prop :=
  x.request.Reads ∨ x.request.isConflict x.reply

/-- One request to a store that may break down, whether it has served the request or not, and may
report a conflict that is not there. -/
inductive Store.Stumbles (s : Store) (r : Request) (reply : r.Reply) (s' : Store) : Prop
  | serves (served : s.Serves r reply s')
  | fails (e : StoreError) (breakdown : e.isBreakdown) (told : reply = r.refusal e)
      (left : s' = s ∨ ∃ unheard, s.Serves r unheard s')
  | conflicts (told : r.isConflict reply) (left : s' = s)

namespace Keeper

variable {σ α : Type} {keeper : Keeper σ} {x x' : σ} {p : Program α} {said said' : List Exchange}
  {result : Except MatchError α}

/-- Exchanges that lead the keeper from one state to another. -/
inductive Passes (keeper : Keeper σ) : σ → List Exchange → σ → Prop
  | nil (x : σ) : Passes keeper x [] x
  | cons {x x₁ x' : σ} {y : Exchange} {said : List Exchange}
      (served : keeper x y.request y.reply x₁) (rest : Passes keeper x₁ said x') :
      Passes keeper x (y :: said) x'

theorem Runs.goes (runs : keeper.Runs x p result x') :
    ∃ said, p.Goes said result ∧ keeper.Passes x said x' := by
  induction runs with
  | done x a => exact ⟨[], .done a, .nil x⟩
  | fail x e => exact ⟨[], .fail e, .nil x⟩
  | call served _ ih =>
    obtain ⟨said, goes, passes⟩ := ih
    exact ⟨_, .call goes, .cons served passes⟩

namespace Passes

theorem runs (passes : keeper.Passes x said x') (goes : p.Goes said result) :
    keeper.Runs x p result x' := by
  induction goes generalizing x with
  | done a =>
    cases passes
    exact .done _ a
  | fail e =>
    cases passes
    exact .fail _ e
  | call _ ih =>
    cases passes with
    | cons served rest => exact .call served (ih rest)

theorem of_append (passes : keeper.Passes x (said ++ said') x') :
    ∃ x₁, keeper.Passes x said x₁ ∧ keeper.Passes x₁ said' x' := by
  induction said generalizing x with
  | nil => exact ⟨x, .nil x, passes⟩
  | cons y said ih =>
    cases passes with
    | cons served rest =>
      obtain ⟨x₁, first, second⟩ := ih rest
      exact ⟨x₁, .cons served first, second⟩

end Passes

/-- Collaborators that keep to what the keeper may do run a program as it does. -/
theorem runs_among {I : σ → Prop} {collaborators : Collaborators σ}
    (keeps : ∀ x r, I x →
      keeper x r (collaborators x r).1 (collaborators x r).2 ∧ I (collaborators x r).2)
    (holds : I x) (p : Program α) :
    keeper.Runs x p (p.among collaborators x).result (p.among collaborators x).state := by
  induction p generalizing x with
  | done a => exact .done x a
  | fail e => exact .fail x e
  | call r k ih => exact .call (keeps x r holds).1 (ih _ (keeps x r holds).2)

end Keeper

namespace Store

open Keeper Engine

variable {s s' : Store} {r : Request} {reply : r.Reply} {e : MatchError} {α : Type}
  {p : Program α} {said : List Exchange} {a : Attempt}

namespace Stumbles

theorem leaves {P : Store → Prop} (stumbles : s.Stumbles r reply s') (still : P s)
    (served : ∀ reply', s.Serves r reply' s' → P s') : P s' := by
  cases stumbles with
  | serves heard => exact served reply heard
  | fails e breakdown told left =>
    rcases left with rfl | ⟨unheard, serves⟩
    · exact still
    · exact served unheard serves
  | conflicts told left =>
    rw [left]
    exact still

theorem eq_of_reads (stumbles : s.Stumbles r reply s') (reads : r.Reads) : s' = s := by
  refine stumbles.leaves (P := (· = s)) rfl ?_
  intro reply' served
  cases served <;> first | rfl | cases reads

theorem eq_of_conflict (stumbles : s.Stumbles r reply s') (conflict : r.isConflict reply) :
    s' = s := by
  cases stumbles with
  | serves served => cases served <;> first | rfl | cases conflict
  | fails e breakdown told left =>
    rw [told] at conflict
    cases r with
    | createAttempt u v =>
      cases e with
      | pendingConflict => cases breakdown
      | _ => cases conflict
    | _ => cases conflict
  | conflicts told left => exact left

theorem attempts_of_append {id : AttemptId} {h : Happening}
    {reply : (Request.appendEvent id h).Reply}
    (stumbles : s.Stumbles (.appendEvent id h) reply s') : s'.attempts = s.attempts := by
  refine stumbles.leaves (P := fun t => t.attempts = s.attempts) rfl ?_
  intro reply' served
  cases served
  rfl

theorem not_isPending_of_finish {id : AttemptId} {state : State} {other : AttemptId}
    (stumbles : s.Stumbles (.finishAttempt id state) (.error (.notPending other)) s') :
    ∀ a ∈ s.attempts, a.id = id → ¬a.isPending := by
  cases stumbles with
  | serves served =>
    cases served with
    | notPending _ absent => exact absent
  | fails e breakdown told left =>
    cases told
    cases breakdown
  | conflicts told left => cases told

end Stumbles

theorem eq_of_harmless (passes : Passes Stumbles s said s') (harmless : ∀ x ∈ said, x.IsHarmless) :
    s' = s := by
  induction passes with
  | nil s => rfl
  | cons served _ ih =>
    obtain ⟨first, others⟩ := List.forall_mem_cons.1 harmless
    rw [ih others]
    exact first.elim served.eq_of_reads served.eq_of_conflict

theorem isInternal_of_heeds {b : Bool} {Q : Bool → α → Prop}
    (heeds : p.Heeds { fails := fun e => e.isInternal } Q b)
    (runs : Runs Stumbles s p (.error e) s') : e.isInternal := by
  obtain ⟨said, goes, _⟩ := runs.goes
  exact or_self_iff.1 (heeds.error_of_goes goes)

theorem isInternal_of_append {id : AttemptId} {h : Happening}
    (runs : Runs Stumbles s (append id h >>= fun _ => p) (.error e) s')
    (rest : ∀ {s₁}, s₁.attempts = s.attempts → Runs Stumbles s₁ p (.error e) s' → e.isInternal) :
    e.isInternal := by
  rcases runs.of_bind with ⟨_, s₁, writes, after⟩ | ⟨e, writes, failed⟩
  · obtain ⟨reply, s₂, stumbles, told⟩ := Runs.of_call writes
    have left : s₁ = s₂ := by
      cases reply with
      | error e => cases told
      | ok event => exact (Runs.of_done told).2
    rw [left] at after
    exact rest stumbles.attempts_of_append after
  · cases failed
    exact isInternal_of_heeds (b := false) (heeds_append trivial) writes

section Answering

variable {user : UserId} (mem : a ∈ s.attempts) (pending : a.isPending)

include mem pending

theorem isInternal_moveTo {state : State}
    (runs : Runs Stumbles s (moveTo a user state) (.error e) s') : e.isInternal := by
  obtain ⟨reply, s₂, stumbles, rest⟩ := Runs.of_call runs
  rcases reply with e | _
  · cases e with
    | notPending other => exact absurd pending (stumbles.not_isPending_of_finish a mem rfl)
    | _ =>
      cases rest
      exact rfl
  · cases rest

theorem isInternal_finish {state : State}
    (runs : Runs Stumbles s (finish a user state) (.error e) s') : e.isInternal := by
  unfold finish at runs
  split at runs
  · refine isInternal_of_append runs fun same runs => ?_
    rw [← same] at mem
    exact isInternal_moveTo mem pending runs
  · exact isInternal_moveTo mem pending runs

theorem isInternal_settle {side : Role} {verdict : Verdict}
    (runs : Runs Stumbles s (settle a user side verdict) (.error e) s') : e.isInternal := by
  have news : AllowsNews { fails := fun e => e.isInternal } :=
    ⟨fun _ _ => trivial, fun _ _ => trivial, fun _ _ => trivial⟩
  cases verdict with
  | dislike =>
    have closes : Runs Stumbles s (finish a user .mismatched) (.error e) s' := by
      cases side <;> exact runs
    exact isInternal_finish mem pending closes
  | like =>
    cases side with
    | first => exact isInternal_of_heeds (heeds_settle_first news user) runs
    | second =>
      rcases Runs.of_bind runs with ⟨_, s₁, _, after⟩ | ⟨e, closes, failed⟩
      · exact isInternal_of_heeds (heeds_createChat news) after
      · cases failed
        exact isInternal_finish mem pending closes

end Answering

section Refusing

variable {principal : Principal} {candidate : UserId} {verdict : Verdict} {ruler : Geo.Ruler}
  {retries : Nat}

/-- An answer is refused only before it is written. -/
theorem eq_of_swipe_refused (refused : e.isRefusal)
    (runs : Runs Stumbles s (swipe principal candidate verdict) (.error e) s') : s' = s := by
  obtain ⟨said, goes, passes⟩ := runs.goes
  rcases goes_swipe goes with ⟨a, side, before, rest, turn, split, reads, answers⟩ | ⟨reads, _⟩
  · obtain ⟨last, others, told, _, _⟩ := turn
    have stored : a ∈ s.attempts ∧ a.isPending := by
      rw [told] at passes
      cases passes with
      | cons served _ =>
        cases served with
        | serves served =>
          cases served with
          | pendingOfPair mem _ pending => exact ⟨mem, pending⟩
        | fails e breakdown told => cases told
        | conflicts told => cases told
    rw [split] at passes
    obtain ⟨s₁, first, second⟩ := passes.of_append
    rw [eq_of_harmless first fun x mem => Or.inl (reads x mem)] at second
    refine absurd ?_ (MatchError.not_isInternal_of_isRefusal refused)
    refine isInternal_of_append (second.runs answers) ?_
    intro s₂ same after
    exact isInternal_settle (by rw [same]; exact stored.1) stored.2 after
  · exact eq_of_harmless passes fun x mem => Or.inl (reads x mem)

theorem isConflict_of_isLost {r : Round} (lost : r.isLost) (u v : UserId) :
    (Request.createAttempt u v).isConflict r.reply := by
  unfold Round.isLost at lost
  rcases told : r.reply with e | a
  · rw [told] at lost
    cases e <;> exact lost
  · rw [told] at lost
    exact lost

theorem harmless_of_deserted {person : Person} {limit : Nat}
    (goes : (freshPartner ruler person limit).Goes said (.ok none)) :
    ∀ x ∈ said, x.IsHarmless := by
  obtain ⟨rounds, rest, rfl, reselects⟩ := Reselects.of_goes goes
  have lost := (reselects.nobody_iff.1 rfl).1
  refine List.forall_mem_append.2 ⟨?_, fun x mem => Or.inl (reselects.reads_of_lost lost x mem)⟩
  intro x mem
  obtain ⟨r, round, mem⟩ := List.mem_flatMap.1 mem
  rcases List.mem_append.1 mem with mem | mem
  · exact Or.inl (reads_of_goes only_chooseCandidate (reselects.chosen r round) x mem)
  · rw [List.mem_singleton.1 mem]
    exact Or.inr (isConflict_of_isLost (lost r round) _ _)

theorem eq_of_nextPartner_refused (refused : e.isRefusal)
    (runs : Runs Stumbles s (nextPartner ruler retries principal) (.error e) s') : s' = s := by
  obtain ⟨said, goes, passes⟩ := runs.goes
  have failed := MatchError.not_isInternal_of_isRefusal refused
  refine eq_of_harmless passes ?_
  rcases goes_nextPartner goes with
    approaches | ⟨person, own, rest, found, rfl, approaches, goes, told⟩
  · rcases error_approach approaches with internal | reads
    · exact absurd internal failed
    · exact fun x mem => Or.inl (reads x mem)
  · obtain ⟨before, rfl, reads⟩ := said_approach approaches
    rcases found with e | _ | partner
    · cases told
      exact absurd (isInternal_freshPartner goes) failed
    · refine List.forall_mem_append.2 ⟨?_, harmless_of_deserted goes⟩
      refine List.forall_mem_append.2 ⟨?_, fun x mem => Or.inl (reads x mem)⟩
      exact List.forall_mem_cons.2 ⟨Or.inl rfl, List.forall_mem_singleton.2 (Or.inl rfl)⟩
    · cases told

end Refusing

end Store

/-- Over any reachable store and with any breakdowns on the way, a call that is refused leaves the
store as it was: attempts with their states, all logs, chats and notifications. -/
theorem Call.refused_changes_nothing {c : Call} {ruler : Geo.Ruler} {s s' : Store}
    {e : MatchError}
    (runs : Keeper.Runs Store.Stumbles s (c.program ruler) (.error e) s')
    (refused : e.isRefusal) : s' = s := by
  cases c with
  | next retries principal =>
    obtain ⟨result, first, told⟩ := Keeper.Runs.of_bind_done runs
    cases result <;> cases told
    exact Store.eq_of_nextPartner_refused refused first
  | swipe principal candidate verdict =>
    obtain ⟨result, first, told⟩ := Keeper.Runs.of_bind_done runs
    cases result <;> cases told
    exact Store.eq_of_swipe_refused refused first

/-- Requests answered from a store, but every request for an attempt is answered with a conflict. -/
def Store.contested (around : Surroundings) : Collaborators Store
  | s, .createAttempt u v => (.error (.pendingConflict u v), s)
  | s, r => s.serve around r

theorem Store.stumbles_contested {s : Store} (numbered : s.IsNumbered) (around : Surroundings)
    (r : Request) :
    s.Stumbles r (contested around s r).1 (contested around s r).2 ∧
      (contested around s r).2.IsNumbered := by
  cases r with
  | createAttempt u v => exact ⟨.conflicts rfl rfl, numbered⟩
  | _ => exact ⟨.serves (serves_serve numbered around _), numbered.serve around _⟩

/-- A lost race in which nothing may be retried. -/
theorem Call.refused_changes_nothing_after_lost_race :
    let run := ((Call.next 0 ⟨1⟩).program fun _ _ => some 0).among
      (Store.contested { photoBase := "" }) (Store.village [1, 2])
    run.result = .error .noCandidates ∧ deeds run.said = [.attempt 1 2] ∧
      run.state = Store.village [1, 2] := by
  intro run
  have runs := Keeper.runs_among (I := Store.IsNumbered)
    (fun _ r numbered => Store.stumbles_contested numbered { photoBase := "" } r)
    (Store.isNumbered_village [1, 2]) ((Call.next 0 ⟨1⟩).program fun _ _ => some 0)
  have told : run.result = .error .noCandidates := rfl
  rw [told] at runs
  exact ⟨told, rfl, Call.refused_changes_nothing runs rfl⟩

end Matchmaking
