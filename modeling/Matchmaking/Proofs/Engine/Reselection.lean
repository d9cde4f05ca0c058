import Matchmaking.Proofs.Engine.Script
import Matchmaking.Proofs.Traffic.Schedule
/-! `freshPartner` round by round. A round chooses a candidate anew and asks for an attempt; a lost
one writes nothing and leads to the next, as long as there is one. -/
namespace Matchmaking

namespace Program

variable {α β : Type} {p : Program α} {said : List Exchange} {result result' : Except MatchError α}

theorem Goes.unique (goes : p.Goes said result) (goes' : p.Goes said result') :
    result = result' := by
  induction goes with
  | done a => exact goes'.of_done.2.symm
  | fail e => exact goes'.of_fail.2.symm
  | call rest ih =>
    cases goes' with
    | call rest' => exact ih rest'

end Program

def Request.approaches : Request → Bool
  | validUsers | createAttempt _ _ => false
  | _ => true

theorem Request.approaches_of_attends (r : Request) (attends : r.attends) : r.approaches := by
  cases r <;> first | rfl | cases attends

def Searches (said : List Exchange) : Prop := ∃ x ∈ said, x.request = .validUsers

def Unopened (said : List Exchange) : Prop := ∀ u v, .attempt u v ∉ deeds said

/-- Every profile told is that of the user whom it was asked for. -/
def OwnProfiles (said : List Exchange) : Prop :=
  ∀ x ∈ said, ∀ user, x.request = .profile user → ∀ profile ∈ x.profile?, profile.userId = user

namespace Engine
open Program

section Reading

variable {α : Type} {p : Program α} {said : List Exchange} {result : Except MatchError α}
  {user : UserId}

theorem reads_of_goes (only : p.Only Plain) (goes : p.Goes said result) :
    ∀ x ∈ said, x.request.Reads :=
  fun x mem => Request.reads_of_isPlain _ ((Makes.of_goes only goes).1 x mem)

theorem reads_of_lastHappening {id : AttemptId} {found : Except MatchError (Option Happening)}
    (goes : (lastHappening id).Goes said found) : ∀ x ∈ said, x.request.Reads := by
  intro x mem
  have only : (lastHappening id).Only Request.Reads :=
    Heeds.only (b := false) (heeds_lastHappening rfl)
  exact (Makes.of_goes only goes).1 x mem

theorem ne_none_of_goes (goes : (p >>= fun a => done (some a)).Goes said (.ok none)) : False := by
  rcases goes.of_bind with ⟨before, a, after, _, _, ends⟩ | ⟨e, _, failed⟩
  · cases ends
  · cases failed

theorem reads_hangingAmong {as : List Attempt}
    (goes : (hangingAmong as).Goes said (.ok none)) : ∀ x ∈ said, x.request.Reads := by
  induction as generalizing said with
  | nil =>
    obtain ⟨rfl, _⟩ := goes.of_done
    exact List.forall_mem_nil _
  | cons a rest ih =>
    rcases Goes.of_bind goes with ⟨before, last, after, rfl, looks, goes⟩ | ⟨e, _, failed⟩
    · split at goes
      · rcases goes.of_bind with ⟨_, _, _, _, _, shows⟩ | ⟨e, _, failed⟩
        · exact (ne_none_of_goes shows).elim
        · cases failed
      · exact List.forall_mem_append.2 ⟨reads_of_lastHappening looks, ih goes⟩
    · cases failed

theorem reads_hangingPartner (goes : (hangingPartner user).Goes said (.ok none)) :
    ∀ x ∈ said, x.request.Reads := by
  obtain ⟨reply, after, rfl, rest⟩ := Goes.of_call goes
  cases reply with
  | error e => cases rest
  | ok as => exact List.forall_mem_cons.2 ⟨rfl, reads_hangingAmong rest⟩

theorem reads_liker (goes : (liker user).Goes said (.ok none)) :
    ∀ x ∈ said, x.request.Reads := by
  obtain ⟨reply, after, rfl, rest⟩ := Goes.of_call goes
  rcases reply with e | _ | a
  · cases rest
  · obtain ⟨rfl, _⟩ := Goes.of_done rest
    exact List.forall_mem_singleton.2 rfl
  · rcases Goes.of_bind (p := lastHappening a.id) rest with
      ⟨before, last, after, rfl, _, rest⟩ | ⟨e, _, failed⟩
    · dsimp only at rest
      split at rest
      · rcases rest.of_bind with ⟨_, _, _, _, _, shows⟩ | ⟨e, _, failed⟩
        · exact (ne_none_of_goes shows).elim
        · cases failed
      · exact (ne_none_of_goes rest).elim
    · cases failed

end Reading

/-- A partner for whom no attempt has to be opened: shown and not yet answered, or waiting for an
answer. -/
def standingPartner (user : UserId) : Program (Option Showcase) := do
  if let some partner ← hangingPartner user then return some partner
  liker user

/-- The part of `nextPartner` before `freshPartner`: it ends with the partner to show, or else with
the person to search for. -/
def approach (principal : Principal) : Program (Person ⊕ Showcase) :=
  asUser principal fun user => do
    let person ← completePerson user
    return (← standingPartner user).elim (.inl person) .inr

def search (ruler : Geo.Ruler) (retries : Nat) : Person ⊕ Showcase → Program Showcase
  | .inl person => do
    if let some partner ← freshPartner ruler person (retries + 1) then return partner
    .fail .noCandidates
  | .inr partner => return partner

theorem nextPartner_eq (ruler : Geo.Ruler) (retries : Nat) (principal : Principal) :
    nextPartner ruler retries principal = approach principal >>= search ruler retries := by
  unfold nextPartner approach asUser
  split
  · next user _ =>
    rw [bind_assoc]
    refine congrArg (completePerson user >>= ·) (funext fun person => ?_)
    rw [bind_assoc, standingPartner, bind_assoc]
    refine congrArg (hangingPartner user >>= ·) (funext fun hanging => ?_)
    cases hanging with
    | some partner => rfl
    | none =>
      refine congrArg (liker user >>= ·) (funext fun liked => ?_)
      cases liked <;> rfl
  · rfl

theorem heeds_standingPartner {law : Law} (attends : ∀ r : Request, r.attends → law.asks r)
    (unshown : ∀ v, law.fails (.internal "can't get profile" (.missingProfile v))) {user : UserId}
    (own : law.asks (.pendingOf user)) (others : law.asks (.likerOf user)) :
    (standingPartner user).Heeds law (leaving false fun _ => True) false := by
  refine (heeds_hangingPartner attends unshown own).go_on fun hanging _ => ?_
  cases hanging with
  | some partner => exact ⟨rfl, trivial⟩
  | none => exact (heeds_liker attends unshown others).imp fun _ _ ends => ⟨ends.1, trivial⟩

/-- The approach neither chooses a candidate nor opens an attempt, and it does not end in
`noCandidates`. -/
abbrev approaching : Law where
  asks r := r.approaches
  fails e := e ≠ .noCandidates

theorem heeds_approach (principal : Principal) :
    (approach principal).Heeds approaching (leaving false fun _ => True) false := by
  have incomplete : approaching.fails .incompleteProfile := nofun
  have unshown (v : UserId) :
      approaching.fails (.internal "can't get profile" (.missingProfile v)) := nofun
  unfold approach asUser
  split
  · next user _ =>
    refine (heeds_completePerson rfl rfl incomplete).go_on fun person _ => ?_
    refine (heeds_standingPartner Request.approaches_of_attends unshown rfl rfl).go_on ?_
    exact fun _ _ => ⟨rfl, trivial⟩
  · next e failed =>
    unfold identify at failed
    split at failed <;> cases failed
    exact nofun

section Approaching

variable {principal : Principal} {said : List Exchange} {person : Person}
  {found : Except MatchError (Person ⊕ Showcase)}

theorem unopened_of_approaches (approaches : ∀ x ∈ said, x.request.approaches) :
    Unopened said := by
  intro u v opened
  obtain ⟨x, mem, written⟩ := List.mem_filterMap.1 opened
  have here := approaches x mem
  revert written here
  cases x.request <;> simp [Request.deed?, Request.approaches]

theorem not_searches_of_approaches (approaches : ∀ x ∈ said, x.request.approaches) :
    ¬Searches said := by
  rintro ⟨x, mem, asked⟩
  have here := approaches x mem
  rw [asked] at here
  cases here

theorem approaches_of_goes (goes : (approach principal).Goes said found) :
    ∀ x ∈ said, x.request.approaches :=
  (heeds_approach principal).asks_of_goes goes fun _ _ _ _ => trivial

theorem ne_of_approach {e : MatchError} (goes : (approach principal).Goes said (.error e)) :
    e ≠ .noCandidates := by
  rcases (heeds_approach principal).comes_to goes fun _ _ _ _ => trivial with other | internal
  · exact other
  · rintro rfl
    cases internal

def records (user : UserId) (person : Person) : List Exchange :=
  [⟨.profile user, .ok (some person.profile)⟩, ⟨.preferences user, .ok (some person.preferences)⟩]

theorem said_completePerson {user : UserId} {said : List Exchange} {person : Person}
    (goes : (completePerson user).Goes said (.ok person)) : said = records user person := by
  obtain ⟨reply, after, rfl, told⟩ := Goes.of_call goes
  rcases reply with e | profile
  · cases told
  · obtain ⟨reply, after, rfl, judged⟩ := Goes.of_call told
    rcases reply with e | preferences
    · cases judged
    · dsimp only [expect_ok, done_bind, Program.bind] at judged
      split at judged
      · split at judged
        · obtain ⟨rfl, same⟩ := Goes.of_done judged
          cases same
          rfl
        · cases judged
      · cases judged

theorem reads_standingPartner {user : UserId} (goes : (standingPartner user).Goes said (.ok none)) :
    ∀ x ∈ said, x.request.Reads := by
  rcases (Goes.of_bind goes).symm with ⟨e, _, failed⟩ | ⟨looked, hanging, courted, rfl, looks, goes⟩
  · cases failed
  · cases hanging with
    | some partner => cases goes
    | none => exact List.forall_mem_append.2 ⟨reads_hangingPartner looks, reads_liker goes⟩

theorem isInternal_standingPartner {user : UserId} {e : MatchError}
    (goes : (standingPartner user).Goes said (.error e)) : e.isInternal := by
  have heeds : (standingPartner user).Heeds { fails := fun e => e.isInternal } _ false :=
    heeds_standingPartner (fun _ _ => trivial) (fun _ => rfl) trivial trivial
  exact or_self_iff.1 (heeds.error_of_goes goes)

theorem said_approach (goes : (approach principal).Goes said (.ok (.inl person))) :
    ∃ before, said = records principal.id person ++ before ∧ ∀ x ∈ before, x.request.Reads := by
  unfold approach asUser identify at goes
  by_cases nobody : principal.id = 0
  · rw [if_pos nobody] at goes
    cases goes
  rw [if_neg nobody] at goes
  rcases (Goes.of_bind goes).symm with ⟨e, _, failed⟩ | ⟨own, caller, after, rfl, described, goes⟩
  · cases failed
  rcases (Goes.of_bind goes).symm with ⟨e, _, failed⟩ | ⟨before, found, last, rfl, stands, ends⟩
  · cases failed
  obtain ⟨rfl, same⟩ := Goes.of_done ends
  cases found with
  | some partner => cases same
  | none =>
    cases same
    rw [said_completePerson described, List.append_nil]
    exact ⟨before, rfl, reads_standingPartner stands⟩

theorem error_approach {e : MatchError} (goes : (approach principal).Goes said (.error e)) :
    e.isInternal ∨ ∀ x ∈ said, x.request.Reads := by
  unfold approach asUser identify at goes
  by_cases nobody : principal.id = 0
  · rw [if_pos nobody] at goes
    rw [goes.of_fail.1]
    exact Or.inr (List.forall_mem_nil _)
  rw [if_neg nobody] at goes
  rcases (Goes.of_bind goes).symm with ⟨e, described, failed⟩ | ⟨own, caller, after, rfl, _, goes⟩
  · exact Or.inr (reads_of_goes (only_completePerson _) described)
  rcases (Goes.of_bind goes).symm with ⟨e, stands, failed⟩ | ⟨before, found, last, rfl, _, ends⟩
  · cases failed
    exact Or.inl (isInternal_standingPartner stands)
  · cases ends

end Approaching

section Fresh

variable {ruler : Geo.Ruler} {person : Person} {said : List Exchange}

theorem isInternal_freshPartner {rounds : Nat} {e : MatchError}
    (goes : (freshPartner ruler person rounds).Goes said (.error e)) : e.isInternal := by
  have heeds :
      (freshPartner ruler person rounds).Heeds { fails := fun e => e.isInternal } _ false :=
    heeds_freshPartner (fun _ _ => trivial) (fun _ _ => trivial) (fun _ => rfl) (fun _ => trivial)
      rounds
  exact or_self_iff.1 (heeds.error_of_goes goes)

theorem searches_of_chooseCandidate {chosen : Except MatchError (Option UserId)}
    (goes : (chooseCandidate ruler person).Goes said chosen) : Searches said := by
  obtain ⟨reply, after, rfl, _⟩ := Goes.of_call goes
  exact ⟨_, List.mem_cons_self, rfl⟩

theorem deeds_of_append {id : AttemptId} {h : Happening}
    (goes : (append id h).Goes said (.ok ())) : deeds said = [.event id h] :=
  ((Agenda.ok_iff (Agenda.performs_append id h) goes).1 ⟨(), rfl⟩).1

/-- A showcase is returned only once both events of the showing are written. -/
theorem goes_opening {id : AttemptId} {candidate : UserId}
    {found : Except MatchError (Option Showcase)}
    (goes : (append id .created >>= fun _ => append id .shownToFirst >>= fun _ =>
      showcase candidate >>= fun partner => done (some partner)).Goes said found) :
    deeds said <+: [.event id .created, .event id .shownToFirst] ∧ found ≠ .ok none ∧
      ∀ partner, found = .ok partner →
        deeds said = [.event id .created, .event id .shownToFirst] := by
  have shows : (showcase candidate >>= fun partner => done (some partner)).Only Plain :=
    Heeds.only (heeds_showcase_some Request.isPlain_of_portrays (fun _ => trivial) candidate)
  refine ⟨?_, ?_, ?_⟩
  · have shown : Agenda.Begins [] (showcase candidate >>= fun partner => done (some partner)) :=
      Agenda.ends_of_only shows Request.reads_of_isPlain fun _ => trivial
    exact Agenda.deeds_prefix ((Agenda.performs_append id .created).begins fun _ =>
      (Agenda.performs_append id .shownToFirst).begins fun _ => shown) goes
  · rintro rfl
    rcases goes.of_bind with ⟨_, _, _, _, _, goes⟩ | ⟨e, _, failed⟩
    · rcases goes.of_bind with ⟨_, _, _, _, _, goes⟩ | ⟨e, _, failed⟩
      · exact ne_none_of_goes goes
      · cases failed
    · cases failed
  · rintro partner rfl
    rcases goes.of_bind with ⟨first, _, after, rfl, created, goes⟩ | ⟨e, _, failed⟩
    · rcases goes.of_bind with ⟨second, _, rest, rfl, shown, goes⟩ | ⟨e, _, failed⟩
      · rw [deeds_append, deeds_append, deeds_of_append created, deeds_of_append shown,
          deeds_eq_nil (reads_of_goes shows goes)]
        rfl
      · cases failed
    · cases failed

end Fresh

/-- One round of `freshPartner`: how a candidate was chosen, and how the request for an attempt was
answered. -/
structure Round where
  choice : List Exchange
  candidate : UserId
  reply : Except StoreError Attempt

namespace Round

def said (user : UserId) (r : Round) : List Exchange :=
  r.choice ++ [⟨.createAttempt user r.candidate, r.reply⟩]

def isLost (r : Round) : Bool :=
  match r.reply with
  | .error (.pendingConflict _ _) => true
  | _ => false

end Round

/-- The rounds of a search within a limit, what is said after the last of them, and what the search
comes to. -/
structure Reselects (ruler : Geo.Ruler) (person : Person) (limit : Nat) (rounds : List Round)
    (rest : List Exchange) (found : Except MatchError (Option Showcase)) : Prop where
  bounded : rounds.length ≤ limit
  /-- Every candidate is chosen anew, by what is read in the same round. -/
  chosen : ∀ r ∈ rounds, (chooseCandidate ruler person).Goes r.choice (.ok (some r.candidate))
  /-- Only lost rounds are followed by others. -/
  lost : ∀ r ∈ rounds.dropLast, r.isLost
  /-- All rounds are lost and no other is left. -/
  exhausted : (∀ r ∈ rounds, r.isLost) → rounds.length = limit → rest = [] ∧ found = .ok none
  /-- All rounds are lost and another is left: a choice follows that leads to no request. -/
  goes_on : (∀ r ∈ rounds, r.isLost) → rounds.length < limit →
    (chooseCandidate ruler person).Goes rest (.ok none) ∧ found = .ok none ∨
      ∃ e, (chooseCandidate ruler person).Goes rest (.error e) ∧ found = .error e
  /-- An attempt that is opened is told of in order, and is the end of the search. -/
  opened : ∀ r ∈ rounds, ∀ a, r.reply = .ok a →
    deeds rest <+: [.event a.id .created, .event a.id .shownToFirst] ∧ found ≠ .ok none ∧
      ∀ partner, found = .ok partner →
        deeds rest = [.event a.id .created, .event a.id .shownToFirst]
  /-- Any other failure is the end of the call. -/
  refused : ∀ r ∈ rounds, ∀ e, r.reply = .error e → ¬r.isLost →
    rest = [] ∧ found = .error (.internal "can't create pair attempt" (.store e))

namespace Reselects

variable {ruler : Geo.Ruler} {person : Person} {limit : Nat} {rounds : List Round} {r : Round}
  {said rest : List Exchange} {found : Except MatchError (Option Showcase)}

theorem none_left : Reselects ruler person 0 [] [] (.ok none) where
  bounded := Nat.le_refl 0
  chosen := List.forall_mem_nil _
  lost := List.forall_mem_nil _
  exhausted _ _ := ⟨rfl, rfl⟩
  goes_on _ more := absurd more (Nat.lt_irrefl 0)
  opened := List.forall_mem_nil _
  refused := List.forall_mem_nil _

theorem unrequested
    (choice : (chooseCandidate ruler person).Goes rest (.ok none) ∧ found = .ok none ∨
      ∃ e, (chooseCandidate ruler person).Goes rest (.error e) ∧ found = .error e) :
    Reselects ruler person (limit + 1) [] rest found where
  bounded := Nat.zero_le _
  chosen := List.forall_mem_nil _
  lost := List.forall_mem_nil _
  exhausted _ none_left := nomatch none_left
  goes_on _ _ := choice
  opened := List.forall_mem_nil _
  refused := List.forall_mem_nil _

theorem last (choice : (chooseCandidate ruler person).Goes r.choice (.ok (some r.candidate)))
    (kept : ¬r.isLost)
    (opened : ∀ a, r.reply = .ok a →
      deeds rest <+: [.event a.id .created, .event a.id .shownToFirst] ∧ found ≠ .ok none ∧
        ∀ partner, found = .ok partner →
          deeds rest = [.event a.id .created, .event a.id .shownToFirst])
    (refused : ∀ e, r.reply = .error e →
      rest = [] ∧ found = .error (.internal "can't create pair attempt" (.store e))) :
    Reselects ruler person (limit + 1) [r] rest found where
  bounded := Nat.succ_le_succ (Nat.zero_le limit)
  chosen := List.forall_mem_singleton.2 choice
  lost := List.forall_mem_nil _
  exhausted lost _ := absurd (List.forall_mem_singleton.1 lost) kept
  goes_on lost _ := absurd (List.forall_mem_singleton.1 lost) kept
  opened := List.forall_mem_singleton.2 opened
  refused := List.forall_mem_singleton.2 fun e failed _ => refused e failed

theorem cons_lost (choice : (chooseCandidate ruler person).Goes r.choice (.ok (some r.candidate)))
    (lost : r.isLost) (reselects : Reselects ruler person limit rounds rest found) :
    Reselects ruler person (limit + 1) (r :: rounds) rest found where
  bounded := Nat.succ_le_succ reselects.bounded
  chosen := List.forall_mem_cons.2 ⟨choice, reselects.chosen⟩
  lost := by
    cases rounds with
    | nil => exact List.forall_mem_nil _
    | cons r' rounds => exact List.forall_mem_cons.2 ⟨lost, reselects.lost⟩
  exhausted all full :=
    reselects.exhausted (List.forall_mem_cons.1 all).2 (Nat.succ.inj full)
  goes_on all more :=
    reselects.goes_on (List.forall_mem_cons.1 all).2 (Nat.lt_of_succ_lt_succ more)
  opened := by
    refine List.forall_mem_cons.2 ⟨?_, reselects.opened⟩
    intro a opened
    rw [Round.isLost, opened] at lost
    cases lost
  refused := List.forall_mem_cons.2 ⟨fun _ _ kept => absurd lost kept, reselects.refused⟩

/-- The search goes round by round. -/
theorem of_goes (goes : (freshPartner ruler person limit).Goes said found) :
    ∃ rounds rest, said = rounds.flatMap (Round.said person.profile.userId) ++ rest ∧
      Reselects ruler person limit rounds rest found := by
  induction limit generalizing said with
  | zero =>
    obtain ⟨rfl, rfl⟩ := goes.of_done
    exact ⟨[], [], rfl, none_left⟩
  | succ limit ih =>
    rcases (Goes.of_bind goes).symm with
      ⟨e, choice, rfl⟩ | ⟨before, chosen, after, rfl, choice, goes⟩
    · exact ⟨[], said, rfl, unrequested (Or.inr ⟨e, choice, rfl⟩)⟩
    cases chosen with
    | none =>
      obtain ⟨rfl, rfl⟩ := Goes.of_done goes
      refine ⟨[], before, by simp, unrequested (Or.inl ⟨choice, rfl⟩)⟩
    | some candidate =>
      obtain ⟨reply, rest, rfl, told⟩ := Goes.of_call goes
      have here : before ++ ⟨.createAttempt person.profile.userId candidate, reply⟩ :: rest =
          [Round.mk before candidate reply].flatMap (Round.said person.profile.userId) ++ rest := by
        simp [Round.said]
      rcases reply with e | a
      · cases e with
        | pendingConflict u v =>
          obtain ⟨rounds, rest, rfl, reselects⟩ := ih told
          refine ⟨⟨before, candidate, .error (.pendingConflict u v)⟩ :: rounds, rest, ?_,
            cons_lost choice rfl reselects⟩
          rw [here, ← List.append_assoc, ← List.flatMap_append]
          rfl
        | _ =>
          obtain ⟨rfl, rfl⟩ := Goes.of_fail told
          refine ⟨_, _, here, last choice Bool.false_ne_true nofun ?_⟩
          rintro e ⟨⟩
          exact ⟨rfl, rfl⟩
      · refine ⟨_, _, here, last choice Bool.false_ne_true ?_ nofun⟩
        rintro a ⟨⟩
        exact goes_opening told

theorem deeds_rounds (reselects : Reselects ruler person limit rounds rest found)
    (user : UserId) :
    deeds (rounds.flatMap (Round.said user)) = rounds.map fun r => .attempt user r.candidate := by
  have asked (r : Round) (mem : r ∈ rounds) :
      deeds (r.said user) = [.attempt user r.candidate] := by
    rw [Round.said, deeds_append,
      deeds_eq_nil (reads_of_goes only_chooseCandidate (reselects.chosen r mem))]
    rfl
  clear reselects
  induction rounds with
  | nil => rfl
  | cons r rounds ih =>
    obtain ⟨first, others⟩ := List.forall_mem_cons.1 asked
    rw [List.flatMap_cons, deeds_append, first, ih others]
    rfl

theorem reads_of_lost (reselects : Reselects ruler person limit rounds rest found)
    (lost : ∀ r ∈ rounds, r.isLost) : ∀ x ∈ rest, x.request.Reads := by
  rcases Nat.eq_or_lt_of_le reselects.bounded with full | more
  · rw [(reselects.exhausted lost full).1]
    exact List.forall_mem_nil _
  · rcases reselects.goes_on lost more with ⟨choice, _⟩ | ⟨e, choice, _⟩
    · exact reads_of_goes only_chooseCandidate choice
    · exact reads_of_goes only_chooseCandidate choice

theorem unopened (reselects : Reselects ruler person limit rounds rest found) :
    Unopened rest := by
  intro u v opened
  by_cases lost : ∀ r ∈ rounds, r.isLost
  · rw [deeds_eq_nil (reselects.reads_of_lost lost)] at opened
    cases opened
  · obtain ⟨r, kept⟩ := Classical.not_forall.1 lost
    obtain ⟨mem, kept⟩ := Classical.not_imp.1 kept
    cases reply : r.reply with
    | error e =>
      rw [(reselects.refused r mem e reply kept).1] at opened
      cases opened
    | ok a => simpa using (reselects.opened r mem a reply).1.subset opened

theorem searches (reselects : Reselects ruler person (limit + 1) rounds rest found)
    (user : UserId) : Searches (rounds.flatMap (Round.said user) ++ rest) := by
  cases rounds with
  | nil =>
    rcases reselects.goes_on (List.forall_mem_nil _) (Nat.succ_pos limit) with
      ⟨choice, _⟩ | ⟨e, choice, _⟩
    · exact searches_of_chooseCandidate choice
    · exact searches_of_chooseCandidate choice
  | cons r rounds =>
    obtain ⟨x, mem, asked⟩ :=
      searches_of_chooseCandidate (reselects.chosen r List.mem_cons_self)
    exact ⟨x, by simp [Round.said, mem], asked⟩

/-- The search comes to nothing exactly if all rounds are lost, and there is no other, or no
candidate to choose. -/
theorem nobody_iff (reselects : Reselects ruler person limit rounds rest found) :
    found = .ok none ↔ (∀ r ∈ rounds, r.isLost) ∧
      (rounds.length = limit ∨ (chooseCandidate ruler person).Goes rest (.ok none)) := by
  constructor
  · intro nobody
    have lost (r : Round) (mem : r ∈ rounds) : r.isLost := by
      apply Classical.byContradiction
      intro kept
      cases reply : r.reply with
      | error e => cases nobody.symm.trans (reselects.refused r mem e reply kept).2
      | ok a => exact (reselects.opened r mem a reply).2.1 nobody
    refine ⟨lost, ?_⟩
    rcases Nat.eq_or_lt_of_le reselects.bounded with full | more
    · exact Or.inl full
    · rcases reselects.goes_on lost more with ⟨choice, _⟩ | ⟨e, _, failed⟩
      · exact Or.inr choice
      · cases nobody.symm.trans failed
  · rintro ⟨lost, ended⟩
    rcases Nat.eq_or_lt_of_le reselects.bounded with full | more
    · exact (reselects.exhausted lost full).2
    · rcases reselects.goes_on lost more with ⟨_, nobody⟩ | ⟨e, choice, _⟩
      · exact nobody
      · rcases ended with full | nobody
        · exact absurd more (by rw [full]; exact Nat.lt_irrefl limit)
        · cases nobody.unique choice

end Reselects

def conclude : Except MatchError (Option Showcase) → Except MatchError Showcase
  | .ok (some partner) => .ok partner
  | .ok none => .error .noCandidates
  | .error e => .error e

/-- `nextPartner` ends with its approach, or goes on to `freshPartner`. -/
theorem goes_nextPartner {ruler : Geo.Ruler} {retries : Nat} {principal : Principal}
    {said : List Exchange} {result : Except MatchError Showcase}
    (goes : (nextPartner ruler retries principal).Goes said result) :
    (approach principal).Goes said (result.map .inr) ∨
      ∃ person own rest found, said = own ++ rest ∧
        (approach principal).Goes own (.ok (.inl person)) ∧
        (freshPartner ruler person (retries + 1)).Goes rest found ∧ result = conclude found := by
  rw [nextPartner_eq] at goes
  rcases (Goes.of_bind goes).symm with
    ⟨e, approaches, rfl⟩ | ⟨own, found, after, rfl, approaches, goes⟩
  · exact Or.inl approaches
  · rcases found with person | partner
    · refine Or.inr ⟨person, own, after, ?_⟩
      rcases (Goes.of_bind goes).symm with
        ⟨e, searches, rfl⟩ | ⟨searched, found, last, rfl, searches, ends⟩
      · exact ⟨.error e, rfl, approaches, searches, rfl⟩
      · refine ⟨.ok found, ?_⟩
        cases found with
        | none =>
          obtain ⟨rfl, rfl⟩ := Goes.of_fail ends
          rw [List.append_nil]
          exact ⟨rfl, approaches, searches, rfl⟩
        | some partner =>
          obtain ⟨rfl, rfl⟩ := Goes.of_done ends
          rw [List.append_nil]
          exact ⟨rfl, approaches, searches, rfl⟩
    · obtain ⟨rfl, rfl⟩ := Goes.of_done goes
      rw [List.append_nil]
      exact Or.inl approaches

/-- For any replies, `nextPartner` either ends with its approach, and then `validUsers` is not
asked, no attempt is asked for and the result is not `noCandidates`; or it comes to `freshPartner`,
having written nothing, and asks for attempts in at most one round more than it may retry. Their
first side is the user of the profile that was read, which is the caller if profiles are those asked
for; what else is written is of the attempt that is opened. The result is `noCandidates` exactly if
all rounds are lost and either the limit is reached or no candidate can be chosen. -/
theorem reselects_within_limit {σ : Type} (collaborators : Collaborators σ) (start : σ)
    (ruler : Geo.Ruler) (retries : Nat) (principal : Principal) :
    let run := (nextPartner ruler retries principal).among collaborators start
    ((approach principal).Goes run.said (run.result.map .inr) ∧ ¬Searches run.said ∧
        Unopened run.said ∧ run.result ≠ .error .noCandidates) ∨
      ∃ person before rounds rest found,
        run.said = records principal.id person ++ before ++
          rounds.flatMap (Round.said person.profile.userId) ++ rest ∧
        (approach principal).Goes (records principal.id person ++ before) (.ok (.inl person)) ∧
        Searches run.said ∧
        deeds before = [] ∧
        (OwnProfiles run.said → person.profile.userId = principal.id) ∧
        Reselects ruler person (retries + 1) rounds rest found ∧
        run.result = conclude found ∧
        deeds run.said =
          (rounds.map fun r => .attempt person.profile.userId r.candidate) ++ deeds rest ∧
        Unopened rest ∧
        ((∀ r ∈ rounds, r.isLost) → deeds rest = []) ∧
        (run.result = .error .noCandidates ↔ (∀ r ∈ rounds, r.isLost) ∧
          (rounds.length = retries + 1 ∨ (chooseCandidate ruler person).Goes rest (.ok none))) := by
  intro run
  rcases goes_nextPartner (goes_among collaborators start _) with
    approaches | ⟨person, own, after, found, split, approaches, goes, concluded⟩
  · have aside := approaches_of_goes approaches
    refine Or.inl ⟨approaches, not_searches_of_approaches aside, unopened_of_approaches aside, ?_⟩
    intro deserted
    rw [deserted] at approaches
    exact ne_of_approach approaches rfl
  · obtain ⟨rounds, rest, rfl, reselects⟩ := Reselects.of_goes goes
    obtain ⟨before, rfl, reads⟩ := said_approach approaches
    have silent := deeds_eq_nil reads
    have whole : run.said = records principal.id person ++ before ++
        rounds.flatMap (Round.said person.profile.userId) ++ rest :=
      split.trans (List.append_assoc _ _ _).symm
    refine Or.inr ⟨person, before, rounds, rest, found, whole, approaches, ?_, silent, ?_, reselects,
      concluded, ?_, reselects.unopened, ?_, ?_⟩
    · obtain ⟨x, mem, asked⟩ := reselects.searches person.profile.userId
      exact ⟨x, split ▸ List.mem_append_right _ mem, asked⟩
    · intro own
      refine own ⟨.profile principal.id, .ok (some person.profile)⟩ ?_ _ rfl _ rfl
      rw [whole]
      simp [records]
    · rw [whole]
      simp only [deeds_append, reselects.deeds_rounds, silent]
      rfl
    · exact fun lost => deeds_eq_nil (reselects.reads_of_lost lost)
    · rw [← reselects.nobody_iff, concluded]
      rcases found with e | _ | partner
      · simp only [conclude, Except.error.injEq, reduceCtorEq, iff_false]
        rintro rfl
        cases isInternal_freshPartner goes
      · exact ⟨fun _ => rfl, fun _ => rfl⟩
      · exact ⟨nofun, nofun⟩

end Engine

/-- Requests answered from a store, but that many of the next requests for an attempt are answered
with a conflict. -/
def Store.outpaced (around : Surroundings) : Collaborators (Nat × Store)
  | (lost + 1, s), .createAttempt u v => (.error (.pendingConflict u v), lost, s)
  | (lost, s), r => ((s.serve around r).1, lost, (s.serve around r).2)

theorem Program.ownProfiles_among {σ α : Type} {collaborators : Collaborators σ}
    (own : ∀ x user, ∀ profile ∈ Exchange.profile? ⟨_, (collaborators x (.profile user)).1⟩,
      profile.userId = user) (x : σ) (p : Program α) :
    OwnProfiles (p.among collaborators x).said := by
  induction p generalizing x with
  | done a => exact List.forall_mem_nil _
  | fail e => exact List.forall_mem_nil _
  | call r k ih =>
    refine List.forall_mem_cons.2 ⟨?_, ih _ _⟩
    rintro user rfl
    exact own x user

theorem Store.userId_of_outpaced {around : Surroundings} (x : Nat × Store) (user : UserId) :
    ∀ profile ∈ Exchange.profile? ⟨_, (outpaced around x (.profile user)).1⟩,
      profile.userId = user := by
  intro profile found
  have told : x.2.profileOf? user = some profile := by
    obtain ⟨lost | lost, s⟩ := x <;> exact found
  unfold Store.profileOf? at told
  simpa using List.find?_some told

/-- With one more round than may be retried, one attempt that is opened by others is made up for,
and two are not. -/
theorem Engine.reselects_within_limit_outpaced :
    let run (lost : Nat) := (nextPartner (fun _ _ => some 0) 1 ⟨1⟩).among
      (Store.outpaced { photoBase := "" }) (lost, Store.village [1, 2, 3])
    (run 1).result.map (·.profile.userId) = .ok 2 ∧
    deeds (run 1).said = [.attempt 1 2, .attempt 1 2, .event 1 .created, .event 1 .shownToFirst] ∧
    (run 2).result = .error .noCandidates ∧
    ∃ (person : Person) (rounds : List Round), person.profile.userId = 1 ∧ rounds.length = 2 ∧
      ∀ r ∈ rounds, r.isLost := by
  intro run
  have deserted : (run 2).result = .error .noCandidates := by rfl
  have written : deeds (run 2).said = [.attempt 1 2, .attempt 1 2] := by rfl
  refine ⟨by rfl, by rfl, deserted, ?_⟩
  have own : OwnProfiles (run 2).said := Program.ownProfiles_among Store.userId_of_outpaced _ _
  rcases reselects_within_limit (Store.outpaced { photoBase := "" }) (2, Store.village [1, 2, 3])
      (fun _ _ => some 0) 1 ⟨1⟩ with
    ⟨_, _, _, other⟩ | ⟨person, before, rounds, rest, found, _, _, _, _, caller, _, _, all, _, still,
      nobody⟩
  · exact absurd deserted other
  · have lost := (nobody.1 deserted).1
    refine ⟨person, rounds, caller own, ?_, lost⟩
    have asked : [Deed.attempt 1 2, .attempt 1 2] = _ := written.symm.trans all
    rw [still lost, List.append_nil] at asked
    simpa using (congrArg List.length asked).symm

end Matchmaking
