import Matchmaking.Http.Framework
import Matchmaking.Http.MediaType
import Matchmaking.Http.Message
import Matchmaking.Engine.Swipe
/-! The surface that callers reach over HTTP. A request is first turned into an action, by looking
at nothing but the request itself; the action is then carried out. The framework passes a request on
only if it accepts some coding of the answer. For a swipe the body is read first, then the caller is
identified, then the candidate is checked, and only then is the engine entered. -/
namespace Matchmaking
namespace Http

structure Incoming where
  method : String
  path : String
  headers : List Access.Header := []
  body : List UInt8 := []

/-- What the service offers. -/
inductive Endpoint
  | health
  | next
  | swipe
  deriving DecidableEq, Repr

namespace Endpoint

def method : Endpoint → String
  | health | next => "GET"
  | swipe => "POST"

def path : Endpoint → String
  | health => "/api/v1/health"
  | next => "/api/v1/partners/next"
  | swipe => "/api/v1/swipes"

def all : List Endpoint := [health, next, swipe]

end Endpoint

/-- Characters that stay escaped in a path. -/
def staysEscaped (c : Char) : Bool := c = '%' || c = '/' || c = '+' || 128 ≤ c.toNat

def unescape : List Char → List Char
  | '%' :: a :: b :: rest =>
    match Json.Quoted.hexValue? a, Json.Quoted.hexValue? b with
    | some x, some y =>
      let c := Char.ofNat (16 * x + y)
      if staysEscaped c then '%' :: a :: b :: unescape rest else c :: unescape rest
    | _, _ => '%' :: unescape (a :: b :: rest)
  | c :: rest => c :: unescape rest
  | [] => []
termination_by s => s.length

/-- The path without what follows it, in its unescaped form. -/
def Incoming.resource (r : Incoming) : String :=
  String.ofList (unescape (r.path.toList.takeWhile fun c => c != '?' && c != '#'))

def Incoming.endpoint? (r : Incoming) : Option Endpoint :=
  Endpoint.all.find? fun e => e.method == r.method && e.path == r.resource

def mediaTypeHeader : String := "content-type"

def lengthHeader : String := "content-length"

/-- The bytes that a body may have. -/
def bodyLimit : Nat := 2097152

/-- The length that a request announces for its body. One beyond 64 bits counts as none. -/
def Incoming.announcedLength? (r : Incoming) : Option Nat := do
  let value ← Access.header? lengthHeader r.headers
  (Decimal.readNat? value.toList).filter (· < twoTo 64)

/-- The request says that its body is JSON. -/
def Incoming.isJson (r : Incoming) : Bool :=
  (Access.header? mediaTypeHeader r.headers).any fun value => MediaType.isJson value.toList

/-- The decoded body, if it is announced as JSON and keeps within the limit. -/
def Incoming.payload (framework : Framework) (r : Incoming) : Except BodyFault (List UInt8) :=
  if !r.isJson then .error .mediaType
  else
    match r.announcedLength?.filter (bodyLimit < ·) with
    | some length => .error (.announcedLength length)
    | none =>
      match framework.decoded r.headers r.body with
      | .error fault => .error fault
      | .ok bytes => if bytes.length ≤ bodyLimit then .ok bytes else .error .overlong

/-- The swipe in the body of a request. -/
def Incoming.swipe (framework : Framework) (r : Incoming) : Except BodyFault SwipeRequest :=
  match r.payload framework with
  | .error fault => .error fault
  | .ok bytes =>
    match Json.decodeText SwipeRequest.ofJson (Text.ofUtf8Readable bytes) with
    | .ok swipe => .ok swipe
    | .error _ => .error (.unreadable bytes)

end Http

def ErrorKind.status : ErrorKind → Nat
  | invalidInput => 400
  | notFound => 404
  | permissionDenied => 403
  | internal => 500

namespace ErrorReport

def ofKind (kind : ErrorKind) (message : String) : ErrorReport := ⟨kind.name, message, kind.status⟩

def ofMatchError (e : MatchError) : ErrorReport := ofKind e.kind e.publicMessage

def ofBodyFault (framework : Http.Framework) (fault : Http.BodyFault) : ErrorReport :=
  ofKind .invalidInput ("Invalid JSON: " ++ framework.faultText fault)

/-- The candidate of a swipe is below one. -/
def outOfRange (framework : Http.Framework) (candidate : UserId) : ErrorReport :=
  ofKind .invalidInput ("candidate_id: Validation error: range [" ++
    framework.parametersText [("min", 1), ("value", candidate)] ++ "]")

end ErrorReport

namespace Http

/-- What a caller gets back. -/
inductive Answer
  /-- No coding of an answer is accepted. -/
  | unacceptable
  /-- There is nothing at that path and method. -/
  | nothing
  | health (report : HealthReport)
  | partner (showcase : Showcase)
  | swiped (receipt : SwipeReceipt)
  | refused (report : ErrorReport)

namespace Answer

def status : Answer → Nat
  | unacceptable => 406
  | nothing => 404
  | health _ | partner _ | swiped _ => 200
  | refused report => report.status

/-- The body, where it is JSON. -/
def body? (form : FloatForm) : Answer → Option Json
  | unacceptable | nothing => none
  | health report => some report.toJson
  | partner showcase => some (showcase.toJson form)
  | swiped receipt => some receipt.toJson
  | refused report => some report.toJson

/-- The body as it is sent: the codings that there are if none is accepted, and empty where there is
nothing. -/
def text : Answer → String
  | unacceptable => ", ".intercalate (Coding.all.map Coding.name)
  | a => (a.body? FloatForm.numbers).elim "" Json.render

def ofError (e : MatchError) : Answer := refused (.ofMatchError e)

/-- The answer after a call, or after its deadline has passed without an end. -/
def ofEnd : Option (Except MatchError Answer) → Answer
  | some (.ok a) => a
  | some (.error e) => ofError e
  | none => ofError .timedOut

end Answer

/-- What a request leads to. -/
inductive Action
  | reply (answer : Answer)
  | health
  | next (user : UserId)
  | swipe (user candidate : UserId) (verdict : Verdict)

/-- The action of a request that is passed on, given how callers are identified by headers. -/
def Incoming.routed (framework : Framework) (callerOf : List Access.Header → Option UserId)
    (r : Incoming) : Action :=
  match r.endpoint? with
  | none => .reply .nothing
  | some .health => .health
  | some .next =>
    match callerOf r.headers with
    | some user => .next user
    | none => .reply (.ofError .unauthenticated)
  | some .swipe =>
    match r.swipe framework with
    | .error fault => .reply (.refused (.ofBodyFault framework fault))
    | .ok swipe =>
      match callerOf r.headers with
      | none => .reply (.ofError .unauthenticated)
      | some user =>
        if swipe.isValid then .swipe user swipe.candidate swipe.verdict
        else .reply (.refused (.outOfRange framework swipe.candidate))

def Incoming.action (framework : Framework) (callerOf : List Access.Header → Option UserId)
    (r : Incoming) : Action :=
  if framework.accepts r.headers then r.routed framework callerOf else .reply .unacceptable

def version : String := "0.1.0"

def healthReport (now : Timestamp) (healthy : Bool) : HealthReport :=
  ⟨if healthy then "healthy" else "degraded", version, now⟩

/-- Carries an action out. -/
def Action.program (retries : Nat) (now : Timestamp) : Action → Program Answer
  | .reply answer => pure answer
  | .health => return .health (healthReport now (← .send .health))
  | .next user => return .partner (← Engine.nextPartner Geo.ruler retries ⟨user⟩)
  | .swipe user candidate verdict => do
    Engine.swipe ⟨user⟩ candidate verdict
    return .swiped ⟨true⟩

end Http
end Matchmaking
