import Matchmaking.Record.People
/-! What an access token claims: whose it is and until when. -/
namespace Matchmaking

open Json (Record natBelow nullable)
open Json.Record (needs may)

structure Claims where
  userId : UserId
  /-- Seconds since 1970 from which on the token has expired. -/
  expires : Option Nat := none
  deriving DecidableEq, Repr

namespace Claims

def toJson (c : Claims) : Json :=
  Json.ofFields (("user_id", .ofNat c.userId) ::
    c.expires.toList.map fun e => ("exp", .ofNat e))

def fields : Record Claims :=
  Claims.mk <$> needs "user_id" Json.id <*> may "exp" (nullable (natBelow (twoTo 64))) none

def ofJson : Json → Json.Decoded Claims := fields.decode

/-- The seconds by which clocks may differ. -/
def leeway : Nat := 60

/-- The claims hold at that second. -/
def isCurrent (c : Claims) (now : Nat) : Bool := c.expires.all fun e => now ≤ e + leeway

end Claims
end Matchmaking
