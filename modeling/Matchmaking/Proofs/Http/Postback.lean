import Matchmaking.Proofs.Http.Guard
import Matchmaking.Proofs.Outcome.Outage
import Matchmaking.Proofs.Record.RoundTrip
import Matchmaking.Proofs.Text.Utf8
/-! Whether the partner that `nextPartner` shows can be answered. A partner shown has a profile that
a collaborator told of, and so an id that the body of a swipe can carry; and the engine never finds
fault with what a swipe says. What is left is the check that the candidate is not zero. The selector
does not make that check, so a user who is shown user zero can neither answer nor get past them. -/
namespace Matchmaking

namespace Http

open Json (Recasts Spells exactly)

variable {framework : Framework} {callerOf : List Access.Header → Option UserId} {retries : Nat}
  {now : Timestamp}

/-- What may be answered when a request has gone that way: what its end makes of it or, once a
collaborator is asked, what a deadline that passes before makes of it. -/
inductive Answers {σ : Type} (report : Report σ Answer) : Answer → Prop
  | ended : Answers report (.ofEnd (some report.result))
  | late (asked : report.said ≠ []) : Answers report (.ofEnd none)

theorem result_of_answers_partner {σ : Type} {report : Report σ Answer} {partner : Showcase}
    (answers : Answers report (.partner partner)) : report.result = .ok (.partner partner) := by
  generalize told : Answer.partner partner = answer at answers
  cases answers with
  | ended =>
    cases result : report.result with
    | ok other => rfl
    | error e =>
      rw [result] at told
      cases told
  | late => cases told

/-- The request posts that swipe in the name of that user: it accepts some coding of the answer, its
body is announced as JSON, and what the body decodes to is not too long and a text of the swipe in
any form. -/
structure Incoming.Posts (r : Incoming) (framework : Framework)
    (callerOf : List Access.Header → Option UserId) (user : UserId) (swipe : SwipeRequest) :
    Prop where
  accepts : framework.accepts r.headers
  endpoint : r.endpoint? = some .swipe
  known : callerOf r.headers = some user
  announced : ∃ mediaType, Access.IsFirst mediaTypeHeader mediaType r.headers ∧
    MediaType.isJson mediaType.toList
  within : ∀ length ∈ r.announcedLength?, length ≤ bodyLimit
  spells : ∃ v text, Recasts SwipeRequest.fields exactly swipe.toJson v ∧ Spells (.value v) text ∧
    framework.decoded r.headers r.body = .ok (Text.utf8 text) ∧ (Text.utf8 text).length ≤ bodyLimit

/-- A posted swipe enters the engine unless its candidate is user zero. -/
theorem Incoming.Posts.action_eq {r : Incoming} {user : UserId} {swipe : SwipeRequest}
    (posts : r.Posts framework callerOf user swipe) (fits : swipe.Fits) :
    r.action framework callerOf =
      if swipe.isValid then .swipe user swipe.candidate swipe.verdict
      else .reply (.refused (.outOfRange framework swipe.candidate)) := by
  obtain ⟨v, text, recast, spells, decoded, short⟩ := posts.spells
  have submits : r.Submits framework swipe := by
    refine ⟨posts.announced, posts.within, _, decoded, short, ?_⟩
    rw [Text.ofUtf8Readable_utf8]
    exact (SwipeRequest.survives fits).recast v _ recast spells
  have read := Incoming.swipe_eq_ok_iff.mpr submits
  simp [Incoming.action, posts.accepts, Incoming.routed, posts.endpoint, posts.known, read]

theorem kind_ne_of_swipe {principal : Principal} {candidate : UserId} {verdict : Verdict}
    {said : List Exchange} {e : MatchError}
    (goes : (Engine.swipe principal candidate verdict).Goes said (.error e)) :
    e.kind ≠ .invalidInput := by
  have answers : Engine.AllowsAnswers { fails := fun e => e.kind ≠ .invalidInput } :=
    { portrays := fun _ _ => trivial, tells := fun _ _ => trivial, pairs := fun _ _ => trivial
      looks := fun _ => trivial, notes := fun _ _ => trivial, moves := fun _ _ => trivial
      late := nofun }
  rcases (Engine.heeds_swipe answers trivial nofun verdict).error_of_goes goes with own | internal
  · exact own
  · cases e with
    | internal context cause => exact nofun
    | _ => cases internal

theorem status_ofError_ne {e : MatchError} (other : e.kind ≠ .invalidInput) :
    (Answer.ofError e).status ≠ 400 := by
  have status : (Answer.ofError e).status = e.kind.status := rfl
  rw [status]
  cases kind : e.kind with
  | invalidInput => exact absurd kind other
  | _ => decide

theorem status_swipe_ne {σ : Type} {report : Report σ Answer} {answer : Answer}
    {user candidate : UserId} {verdict : Verdict}
    (goes : ((Action.swipe user candidate verdict).program retries now).Goes report.said
      report.result) (answers : Answers report answer) : answer.status ≠ 400 := by
  cases answers with
  | late => decide
  | ended =>
    rcases goes.of_bind with ⟨_, _, _, -, -, rest⟩ | ⟨e, failing, failed⟩
    · rw [rest.of_done.2]
      decide
    · rw [failed]
      exact status_ofError_ne (kind_ne_of_swipe failing)

theorem profile_of_next {user : UserId} {K : Profile → Prop} {partner : Showcase}
    {said : List Exchange}
    (goes : ((Action.next user).program retries now).Goes said (.ok (.partner partner)))
    (told : ∀ x ∈ said, ∀ profile ∈ x.profile?, K profile) : K partner.profile := by
  rcases goes.of_bind with ⟨before, shown, after, rfl, chosen, ends⟩ | ⟨e, _, failed⟩
  · cases ends
    rw [List.forall_mem_append] at told
    have heeds : (Engine.nextPartner Geo.ruler retries ⟨user⟩).Heeds { told := K }
        (fun _ partner => K partner.profile) false :=
      Engine.heeds_nextPartner (fun _ => trivial) (fun _ => trivial) retries ⟨user⟩
    exact (heeds.value_of_goes chosen told.1).elim fun _ known => known
  · cases failed

/-- Over any store, and whatever goes on between the two requests, a posted verdict on the user whom
`nextPartner` has shown is answered as bad input exactly if that is user zero. The choice of
candidates offers user zero like any other, while a swipe of user zero never gets as far as the
engine. -/
theorem answer_is_refused_iff {σ τ : Type} (framework : Framework)
    (callerOf : List Access.Header → Option UserId) (retries : Nat) (now now' : Timestamp)
    (user : UserId) (verdict : Verdict) (collaborators : Collaborators σ) (x : σ)
    (collaborators' : Collaborators τ) (y : τ) (get post : Incoming) (partner : Showcase)
    (answer : Answer) :
    let got := ((get.action framework callerOf).program retries now).among collaborators x
    let posted := ((post.action framework callerOf).program retries now').among collaborators' y
    get.endpoint? = some .next → callerOf get.headers = some user →
    Answers got (.partner partner) →
    (∀ x ∈ got.said, ∀ profile ∈ x.profile?, profile.userId < Json.idBound) →
    post.Posts framework callerOf user ⟨partner.profile.userId, verdict⟩ →
    Answers posted answer → (answer.status = 400 ↔ partner.profile.userId = 0) := by
  intro got posted endpoint caller shown told posts answers
  have accepted : framework.accepts get.headers := by
    apply Classical.byContradiction
    intro kept
    have refused : get.action framework callerOf = .reply .unacceptable := if_neg kept
    have result := result_of_answers_partner shown
    simp only [got, refused] at result
    cases result
  have asks : get.action framework callerOf = .next user := by
    simp [Incoming.action, accepted, Incoming.routed, endpoint, caller]
  have goes : ((get.action framework callerOf).program retries now).Goes got.said got.result :=
    Program.goes_among collaborators x _
  have posting : ((post.action framework callerOf).program retries now').Goes posted.said
      posted.result := Program.goes_among collaborators' y _
  rw [asks, result_of_answers_partner shown] at goes
  rw [posts.action_eq (profile_of_next goes told)] at posting
  by_cases nobody : partner.profile.userId = 0
  · have refused : posted.said = [] ∧
        posted.result = .ok (.refused (.outOfRange framework partner.profile.userId)) := by
      rw [if_neg (by simp [SwipeRequest.isValid, nobody])] at posting
      exact posting.of_done
    cases answers with
    | ended =>
      rw [refused.2]
      exact ⟨fun _ => nobody, fun _ => rfl⟩
    | late asked => exact absurd refused.1 asked
  · have valid : SwipeRequest.isValid ⟨partner.profile.userId, verdict⟩ := by
      simpa [SwipeRequest.isValid, Nat.one_le_iff_ne_zero] using nobody
    rw [if_pos valid] at posting
    simp only [status_swipe_ne posting answers, nobody]

section Neighbours

def serving : Collaborators Store := fun s request => s.serve { photoBase := "" } request

def ofFirst (r : Incoming) (s : Store) : Report Store Answer :=
  ((r.action .plain fun _ => some 1).program 3 ⟨0, 0⟩).among serving s

def beside (user : UserId) : Store :=
  ((Store.village [1, user]).addAttempt 1 user .pending ⟨0, 0⟩).2.appendEvents 1
    [.created, .shownToFirst]

def asking : Incoming := { method := "GET", path := "/api/v1/partners/next" }

def posting (swipe : SwipeRequest) : Incoming where
  method := "POST"
  path := "/api/v1/swipes"
  headers := [("Content-Type", "application/json")]
  body := Text.utf8 swipe.toJson.print

theorem posts_posting {swipe : SwipeRequest} (short : (posting swipe).body.length ≤ bodyLimit) :
    (posting swipe).Posts .plain (fun _ => some 1) 1 swipe where
  accepts := rfl
  endpoint := by
    simp only [Incoming.endpoint?, Incoming.resource, posting]
    decide +kernel
  known := rfl
  announced := ⟨"application/json", ⟨[], "Content-Type", [], rfl, by decide, by simp⟩, by decide⟩
  within := nofun
  spells := by
    have written : swipe.toJson.isWritten := by
      simp [SwipeRequest.toJson, Json.isWritten_ofFields, Verdict.toJson]
    exact ⟨swipe.toJson, swipe.toJson.print, Recasts.refl (by simp [exactly]),
      Json.spells_print _ written, rfl, short⟩

def Answer.shown? : Answer → Option UserId
  | partner showcase => some showcase.profile.userId
  | _ => none

theorem exists_partner {result : Except MatchError Answer} {user : UserId}
    (shown : result.map Answer.shown? = .ok (some user)) :
    ∃ partner, result = .ok (.partner partner) ∧ partner.profile.userId = user := by
  rcases result with e | answer
  · cases shown
  · cases answer with
    | partner partner => exact ⟨partner, rfl, Option.some.inj (Except.ok.inj shown)⟩
    | _ => cases shown

/-- The neighbour who is shown can be answered. -/
theorem answer_is_refused_iff_neighbour :
    let got := ofFirst asking (beside 2)
    (∃ partner, got.result = .ok (.partner partner) ∧ partner.profile.userId = 2) ∧
    ∀ verdict answer, Answers (ofFirst (posting ⟨2, verdict⟩) got.state) answer →
      answer.status ≠ 400 := by
  intro got
  have met : got.result.map Answer.shown? = .ok (some 2) := by decide +kernel
  obtain ⟨partner, shown, same⟩ := exists_partner met
  refine ⟨⟨partner, shown, same⟩, ?_⟩
  intro verdict answer answers
  have told : ∀ x ∈ got.said, ∀ profile ∈ x.profile?, profile.userId < Json.idBound := by
    decide +kernel
  have shows : Answers got (.partner partner) := by
    have answers : Answers got (.ofEnd (some got.result)) := .ended
    rwa [shown] at answers
  have posts : (posting ⟨2, verdict⟩).Posts .plain (fun _ => some 1) 1
      ⟨partner.profile.userId, verdict⟩ := by
    rw [same]
    exact posts_posting (by cases verdict <;> decide +kernel)
  have refused := answer_is_refused_iff .plain (fun _ => some 1) 3 ⟨0, 0⟩ ⟨0, 0⟩ 1 verdict serving
    (beside 2) serving got.state asking _ partner answer (by decide +kernel) rfl shows told posts
    answers
  exact refused.not.mpr (by simp [same])

/-- User zero is shown, and neither verdict is taken. -/
theorem nobody_is_shown_but_refused :
    let got := ofFirst asking (beside 0)
    (∃ partner, got.result = .ok (.partner partner) ∧ partner.profile.userId = 0) ∧
    ∀ verdict,
      (Answer.ofEnd (some (ofFirst (posting ⟨0, verdict⟩) got.state).result)).status = 400 := by
  intro got
  constructor
  · exact exists_partner (by decide +kernel)
  · intro verdict
    cases verdict <;> decide +kernel

end Neighbours

end Http

end Matchmaking
