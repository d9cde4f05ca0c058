import Matchmaking.Proofs.Engine.Requests
/-! How a call for a partner searches. It looks through the attempts that its caller is first in,
one after the other, and opens one of its own only when none of them waits for the caller. -/
namespace Matchmaking

inductive Search
  /-- The attempts have not been looked through, or one of them has been taken up. -/
  | closed
  /-- Of these it remains to see whether they wait for the caller. If none is left, an attempt may
  be opened. -/
  | among (as : List Attempt)

namespace Search

open Program Engine

variable {user : UserId} {α β : Type}

def permits (user : UserId) : Search → Request → Prop
  | closed, r => Aside r ∨ r = .pendingOf user
  | among [], _ => True
  | among (a :: _), r => r = .lastEvent a.id

def next : Search → (r : Request) → r.Reply → Search
  | closed, .pendingOf _, .ok as => among as
  | among [], .createAttempt _ _, .ok _ => closed
  | among (a :: rest), r, reply =>
    match r.lastSeen? reply with
    | some last => if Stage.after last = .awaitingFirst then closed else among rest
    | none => among (a :: rest)
  | pos, _, _ => pos

/-- A call may fail anywhere. -/
def protocol (user : UserId) : Protocol Search where
  permits := permits user
  honest _ _ := True
  next := next
  settled _ := True

@[simp] theorem protocol_next : (protocol user).next = next := rfl

def isIdle : Search → Bool
  | closed | among [] => true
  | among (_ :: _) => false

def stays (pos : Search) : Search → α → Prop := fun pos' _ => pos' = pos

theorem keeps_of_only {p : Program α} {pos : Search} (idle : pos.isIdle) (only : p.Only Aside) :
    p.Keeps (protocol user) (stays pos) pos := by
  induction p with
  | done a => exact rfl
  | fail e => exact trivial
  | call r k ih =>
    have permitted : permits user pos r := by
      cases pos with
      | closed => exact Or.inl only.1
      | among as =>
        cases as with
        | nil => exact trivial
        | cons a rest => cases idle
    have here (reply : r.Reply) : next pos r reply = pos := by
      have aside := only.1
      cases pos with
      | closed => cases r <;> first | rfl | exact absurd rfl aside
      | among as =>
        cases as with
        | nil => cases r <;> first | rfl | exact absurd rfl aside
        | cons a rest => cases idle
    refine ⟨permitted, ?_⟩
    intro reply _
    rw [protocol_next, here]
    exact ih reply (only.2 reply)

abbrev aside : Law := { asks := Aside }

theorem keeps_then {Q : Search → β → Prop} {p : Program α} {f : α → Program β} {pos : Search}
    {b : Bool} {R : Bool → α → Prop} (idle : pos.isIdle) (heeds : p.Heeds aside R b)
    (rest : ∀ a, (f a).Keeps (protocol user) Q pos) : (p >>= f).Keeps (protocol user) Q pos := by
  refine (keeps_of_only idle heeds.only).bind ?_
  intro pos' a here
  have same : pos' = pos := here
  rw [same]
  exact rest a

def clears : Search → Option Showcase → Prop := fun pos found => found = none → pos = among []

theorem keeps_hangingAmong (as : List Attempt) :
    (hangingAmong as).Keeps (protocol user) clears (among as) := by
  induction as with
  | nil => exact fun _ => rfl
  | cons a rest ih =>
    refine ⟨rfl, ?_⟩
    intro reply _
    cases reply with
    | error e => exact trivial
    | ok last =>
      have led : next (among (a :: rest)) (.lastEvent a.id) (.ok last) =
          if Stage.after (last.map Event.happening) = .awaitingFirst then closed
          else among rest := rfl
      rw [protocol_next, led]
      dsimp only [Program.bind, expect_ok, done_bind, pure_eq]
      split
      · apply keeps_then (b := false) rfl (heeds_completeShowing aside_of_attends a.id _)
        intro _
        apply keeps_then rfl
          (heeds_showcase (portrays_of_attends aside_of_attends) (fun _ => trivial) a.second)
        intro partner
        exact fun nobody => nomatch nobody
      · exact ih

theorem keeps_hangingPartner : (hangingPartner user).Keeps (protocol user) clears closed := by
  refine ⟨Or.inr rfl, ?_⟩
  intro reply _
  cases reply with
  | error e => exact trivial
  | ok as => exact keeps_hangingAmong as

theorem keeps_freshPartner (ruler : Geo.Ruler) (person : Person) (rounds : Nat) :
    (freshPartner ruler person rounds).Keeps (protocol user) (fun _ _ => True) (among []) := by
  induction rounds with
  | zero => exact trivial
  | succ rounds ih =>
    apply keeps_then (b := false) rfl (heeds_chooseCandidate aside_of_plain)
    intro chosen
    cases chosen with
    | none => exact trivial
    | some candidate =>
      refine ⟨trivial, ?_⟩
      intro reply _
      cases reply with
      | error e =>
        cases e
        case pendingConflict u v => exact ih
        all_goals exact trivial
      | ok a =>
        have led : next (among []) (.createAttempt person.profile.userId candidate) (.ok a) =
            closed := rfl
        rw [protocol_next, led]
        apply keeps_then (b := false) rfl (heeds_append Bool.false_ne_true)
        intro _
        apply keeps_then (b := false) rfl (heeds_append Bool.false_ne_true)
        intro _
        apply keeps_then rfl
          (heeds_showcase (portrays_of_attends aside_of_attends) (fun _ => trivial) candidate)
        intro _
        exact trivial

/-- Every call searches like that. -/
theorem keeps_program (c : Call) (ruler : Geo.Ruler) :
    (c.program ruler).Keeps (protocol c.user) (fun _ _ => True) closed := by
  cases c with
  | swipe principal candidate verdict =>
    have silent : AllowsAnswers aside :=
      { portrays := portrays_of_attends aside_of_attends, tells := aside_of_notice
        pairs := fun _ _ => Bool.false_ne_true, looks := fun _ => Bool.false_ne_true
        notes := fun _ _ => Bool.false_ne_true, moves := fun _ _ => Bool.false_ne_true
        late := fun _ _ => trivial }
    apply keeps_then rfl (heeds_swipe silent Bool.false_ne_true trivial verdict)
    intro _
    exact trivial
  | next retries principal =>
    have partner : (nextPartner ruler retries principal).Keeps (protocol principal.id)
        (fun _ _ => True) closed := by
      unfold nextPartner asUser identify
      split
      · next user told =>
        split at told
        · cases told
        cases told
        apply keeps_then rfl (heeds_completePerson Bool.false_ne_true Bool.false_ne_true trivial)
        intro person
        refine keeps_hangingPartner.bind ?_
        intro pos hanging cleared
        cases hanging with
        | some partner => exact trivial
        | none =>
          rw [cleared rfl]
          apply keeps_then rfl (heeds_liker aside_of_attends (fun _ => trivial) Bool.false_ne_true)
          intro liker
          cases liker with
          | some partner => exact trivial
          | none =>
            refine (keeps_freshPartner ruler person (retries + 1)).bind ?_
            intro pos fresh _
            cases fresh <;> exact trivial
      · exact trivial
    refine partner.bind ?_
    intro pos found _
    exact trivial

end Search
end Matchmaking
