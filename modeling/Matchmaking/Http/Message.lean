import Matchmaking.Record.Attempts
import Matchmaking.Json.Reader
/-! What callers send and get over HTTP besides showcases. -/
namespace Matchmaking

open Json (Record natBelow)
open Json.Record (needs)

/-- A verdict on a candidate, as a caller sends it. -/
structure SwipeRequest where
  candidate : UserId
  verdict : Verdict
  deriving DecidableEq, Repr

structure SwipeReceipt where
  success : Bool
  deriving DecidableEq, Repr

structure ErrorReport where
  error : String
  message : String
  status : Nat
  deriving DecidableEq, Repr

structure HealthReport where
  status : String
  version : String
  timestamp : Timestamp
  deriving DecidableEq, Repr

namespace SwipeRequest

/-- Zero is the id of no user. -/
def isValid (r : SwipeRequest) : Bool := 1 ≤ r.candidate

def toJson (r : SwipeRequest) : Json :=
  Json.ofFields [("candidateId", .ofNat r.candidate), ("verdict", r.verdict.toJson)]

def fields : Record SwipeRequest :=
  SwipeRequest.mk <$> needs "candidateId" Json.id ["candidate_id"] <*>
    needs "verdict" Verdict.ofJson

def ofJson : Json → Json.Decoded SwipeRequest := fields.decode

end SwipeRequest

namespace SwipeReceipt

def toJson (r : SwipeReceipt) : Json := Json.ofFields [("success", .bool r.success)]

def fields : Record SwipeReceipt := SwipeReceipt.mk <$> needs "success" Json.boolean

def ofJson : Json → Json.Decoded SwipeReceipt := fields.decode

end SwipeReceipt

namespace ErrorReport

def toJson (r : ErrorReport) : Json :=
  Json.ofFields [("error", .text r.error), ("message", .text r.message),
    ("status_code", .ofNat r.status)]

def fields : Record ErrorReport :=
  ErrorReport.mk <$> needs "error" Json.string <*> needs "message" Json.string <*>
    needs "status_code" (natBelow (twoTo 16))

def ofJson : Json → Json.Decoded ErrorReport := fields.decode

end ErrorReport

namespace HealthReport

def toJson (r : HealthReport) : Json :=
  Json.ofFields [("status", .text r.status), ("version", .text r.version),
    ("timestamp", r.timestamp.toJson)]

def fields : Record HealthReport :=
  HealthReport.mk <$> needs "status" Json.string <*> needs "version" Json.string <*>
    needs "timestamp" Timestamp.ofJson

def ofJson : Json → Json.Decoded HealthReport := fields.decode

end HealthReport

/-- Reads a whole text as a record: faults inside the value come before text after it. -/
def Json.decodeText {α : Type} (ofJson : Json → Json.Decoded α) (text : List Char) :
    Json.Decoded α := do
  let d := Json.read text
  let a ← ofJson d.value
  if d.ended then return a else .error .invalid

end Matchmaking
