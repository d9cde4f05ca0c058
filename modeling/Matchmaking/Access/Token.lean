import Matchmaking.Access.Claims
import Matchmaking.Json.Reader
import Matchmaking.Json.Printer
import Matchmaking.Text.Base64Url
import Matchmaking.Text.Utf8
/-! Access tokens: header and claims as JSON in base 64, joined by a dot, and after another dot
the authentication code of what stands before it. The code is a parameter; in service it is
HMAC over SHA-256. -/
namespace Matchmaking
namespace Token

open Json (Record Decoded nullable named)
open Json.Record (needs may)

/-- A message authentication code, from a key and a message. -/
abbrev Mac := List UInt8 → List UInt8 → List UInt8

def algorithm : String := "HS256"

def header : Json := Json.ofFields [("typ", .text "JWT"), ("alg", .text algorithm)]

def encodePart (part : Json) : List Char := Base64Url.encode (Text.utf8 part.print)

/-- The code of what stands before the last dot. -/
def signature (mac : Mac) (secret : List UInt8) (signed : List Char) : List Char :=
  Base64Url.encode (mac secret (Text.utf8 signed))

def issue (mac : Mac) (secret : List UInt8) (claims : Claims) : List Char :=
  let signed := encodePart header ++ '.' :: encodePart claims.toJson
  signed ++ '.' :: signature mac secret signed

/-- Parameters of a header that have to be texts where they are present. -/
def textParameters : List String := ["typ", "cty", "jku", "kid", "x5u", "x5t", "x5t#S256"]

/-- A header names the algorithm; other parameters are only checked for their type. -/
def headerFields : Record Unit :=
  textParameters.foldr
    (fun name r => (fun _ _ => ()) <$> may name (nullable Json.string) none <*> r)
    (needs "alg" (named fun s => if s = algorithm then some () else none))

def headerIsSound (part : List Char) : Bool :=
  let value := Base64Url.decode? part >>= Text.ofUtf8? >>= Json.read?
  value.any fun v => (headerFields.ofObject v).isOk

/-- A value that is read as far as it denotes something. -/
def anything : Json → Decoded Unit
  | .number _ => .ok ()
  | v => if v.denotesWithin 127 then .ok () else .error .invalid

/-- A start of validity, which is not looked at further. -/
def instant : Json → Decoded Unit
  | .array (_ :: _) | .object (_ :: _) => .error .invalid
  | v => anything v

/-- A subject, which is not looked at further. -/
def subject : Json → Decoded Unit
  | .array _ | .object _ => .error .invalid
  | v => anything v

def isText : Json → Bool
  | .text _ => true
  | _ => false

/-- Claims of an audience are refused, because no audience is expected. -/
def audience : Json → Decoded Unit
  | .text _ => .error .invalid
  | .array items => if items.all isText then .error .invalid else anything (.array items)
  | v => anything v

/-- The claims that every token may carry, each at most once. -/
def registeredFields : Record Unit :=
  (fun _ _ _ _ _ => ()) <$> may "exp" anything () <*> may "nbf" instant () <*>
    may "sub" subject () <*> may "iss" anything () <*> may "aud" audience ()

/-- The claims of a payload, which has to be an object. -/
def claims? (part : List Char) : Option Claims := do
  let v ← Json.read? (Text.ofUtf8Readable (← Base64Url.decode? part))
  let claims ← (Claims.fields.ofObject v).toOption
  let _ ← (registeredFields.ofObject v).toOption
  return claims

/-- Whose token it is, when it is accepted at that second. -/
def check (mac : Mac) (secret : List UInt8) (now : Nat) (token : List Char) : Option UserId :=
  match Text.splitAt '.' token with
  | [header, payload, code] =>
    if headerIsSound header && code == signature mac secret (header ++ '.' :: payload) then
      (claims? payload).bind fun c =>
        if c.isCurrent now && c.userId != 0 then some c.userId else none
    else none
  | _ => none

end Token
end Matchmaking
