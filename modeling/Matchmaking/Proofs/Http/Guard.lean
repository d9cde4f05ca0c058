import Matchmaking.Http.Surface
import Matchmaking.Proofs.Access.Authenticity
import Matchmaking.Proofs.Access.Identity
import Matchmaking.Proofs.Engine.Transcript
/-! How the surface guards the engine. A request that the framework passes on enters the engine only
in the name of the user that its token speaks for, and a swipe only as its body says. Any other
request is answered without a word to the collaborators. -/
namespace Matchmaking
namespace Http

def Answer.ofResult : Call.Result → Answer
  | .partner showcase => .partner showcase
  | .recorded => .swiped ⟨true⟩

def Action.call? (retries : Nat) : Action → Option Call
  | .next user => some (.next retries ⟨user⟩)
  | .swipe user candidate verdict => some (.swipe ⟨user⟩ candidate verdict)
  | .reply _ | .health => none

variable {retries : Nat} {now : Timestamp} {framework : Framework} {r : Incoming}
  {submitted : SwipeRequest}

theorem Action.program_of_call {action : Action} {c : Call}
    (entered : action.call? retries = some c) :
    action.program retries now =
      c.program Geo.ruler >>= fun result => .done (.ofResult result) := by
  cases action with
  | next user =>
    obtain rfl := Option.some.inj entered
    simp only [program, Call.program, Program.bind_assoc]
    rfl
  | swipe user candidate verdict =>
    obtain rfl := Option.some.inj entered
    simp only [program, Call.program, Program.bind_assoc]
    rfl
  | reply answer => cases entered
  | health => cases entered

/-- The body is taken for that swipe: it is announced as JSON, and what it decodes to keeps within
the limit and reads as the swipe. -/
structure Incoming.Submits (framework : Framework) (r : Incoming) (submitted : SwipeRequest) :
    Prop where
  announced : ∃ mediaType, Access.IsFirst mediaTypeHeader mediaType r.headers ∧
    MediaType.isJson mediaType.toList
  within : ∀ length ∈ r.announcedLength?, length ≤ bodyLimit
  reads : ∃ bytes, framework.decoded r.headers r.body = .ok bytes ∧ bytes.length ≤ bodyLimit ∧
    Json.decodeText SwipeRequest.ofJson (Text.ofUtf8Readable bytes) = .ok submitted

theorem Incoming.isJson_iff : r.isJson ↔
    ∃ mediaType, Access.IsFirst mediaTypeHeader mediaType r.headers ∧
      MediaType.isJson mediaType.toList := by
  simp only [isJson, Option.any_eq_true, Access.header?_eq_some_iff]

theorem Incoming.payload_eq_ok_iff {bytes : List UInt8} : r.payload framework = .ok bytes ↔
    r.isJson ∧ (∀ length ∈ r.announcedLength?, length ≤ bodyLimit) ∧
      framework.decoded r.headers r.body = .ok bytes ∧ bytes.length ≤ bodyLimit := by
  have short : (∀ length ∈ r.announcedLength?, length ≤ bodyLimit) ↔
      r.announcedLength?.filter (bodyLimit < ·) = none := by
    simp [Option.filter_eq_none_iff]
  rw [short, payload]
  cases r.isJson with
  | false => simp
  | true =>
    cases r.announcedLength?.filter (bodyLimit < ·) with
    | some length => simp
    | none =>
      cases framework.decoded r.headers r.body with
      | error fault => simp
      | ok decoded =>
        by_cases fits : decoded.length ≤ bodyLimit
        · simp only [Bool.not_true, Bool.false_eq_true, if_false, if_pos fits, true_and]
          constructor
          · rintro ⟨⟩
            exact ⟨rfl, fits⟩
          · exact And.left
        · simp only [Bool.not_true, Bool.false_eq_true, if_false, if_neg fits, true_and]
          constructor
          · nofun
          · rintro ⟨⟨⟩, within⟩
            exact absurd within fits

theorem Incoming.swipe_eq_ok_iff :
    r.swipe framework = .ok submitted ↔ r.Submits framework submitted := by
  constructor
  · intro read
    unfold swipe at read
    split at read
    · cases read
    · next bytes paid =>
      obtain ⟨json, within, decoded, fits⟩ := payload_eq_ok_iff.mp paid
      split at read
      · next same =>
        cases read
        exact ⟨isJson_iff.mp json, within, bytes, decoded, fits, same⟩
      · cases read
  · rintro ⟨announced, within, bytes, decoded, fits, reads⟩
    have paid := payload_eq_ok_iff.mpr ⟨isJson_iff.mpr announced, within, decoded, fits⟩
    rw [swipe, paid]
    simp only [reads]

section Deciding

variable (framework : Framework) (identified : UserId → Prop)

/-- The request may enter the engine by that call. -/
inductive Incoming.Admits (retries : Nat) (r : Incoming) : Call → Prop
  | next {user : UserId} (endpoint : r.endpoint? = some .next) (known : identified user) :
      Admits retries r (.next retries ⟨user⟩)
  | swipe {user : UserId} {submitted : SwipeRequest} (endpoint : r.endpoint? = some .swipe)
      (submits : r.Submits framework submitted) (known : identified user)
      (somebody : 1 ≤ submitted.candidate) :
      Admits retries r (.swipe ⟨user⟩ submitted.candidate submitted.verdict)

/-- The request is to be turned away with that status. -/
inductive Incoming.Rejects (r : Incoming) : Nat → Prop
  | unreadable (endpoint : r.endpoint? = some .swipe)
      (unread : ∀ submitted, ¬r.Submits framework submitted) : Rejects r 400
  | unknown
      (endpoint : r.endpoint? = some .next ∨
        r.endpoint? = some .swipe ∧ ∃ submitted, r.Submits framework submitted)
      (nobody : ∀ user, ¬identified user) : Rejects r 403
  | outOfRange {user : UserId} {submitted : SwipeRequest} (endpoint : r.endpoint? = some .swipe)
      (submits : r.Submits framework submitted) (known : identified user)
      (nobody : submitted.candidate = 0) : Rejects r 400

end Deciding

section Routes

variable {mac : Token.Mac} {secret : List UInt8} {second : Nat}

end Routes

/-- A framework that has no coding for a request that names any. -/
def Framework.strict : Framework :=
  { Framework.plain with
    accepts := fun headers => (Access.header? acceptHeader headers).isNone
    accepts_of_absent := fun headers absent => by rw [absent]; rfl }

end Http
end Matchmaking
