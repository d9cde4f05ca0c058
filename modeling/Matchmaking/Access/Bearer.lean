import Matchmaking.Access.Token
import Matchmaking.Text.Blank
import Matchmaking.Text.LowerCase
/-! The caller of a request, by the access token in its first header named `Authorization`. -/
namespace Matchmaking
namespace Access

abbrev Header := String × String

def headerName : String := "authorization"

/-- The value of the first header of a name, in any case of letters. -/
def header? (name : String) (headers : List Header) : Option String :=
  (headers.find? fun h => Text.lowerCase h.1 == name).map Prod.snd

/-- A tab or a visible character of ASCII or a space. -/
def isPlain (c : Char) : Bool := c = '\t' || (' ' ≤ c && c ≤ '~')

def scheme : List Char := "Bearer ".toList

/-- The token in the value of the header; there is none in an empty one. -/
def tokenIn? (value : List Char) : Option (List Char) :=
  if value.all isPlain && scheme.isPrefixOf value then
    match Text.trim (value.drop scheme.length) with
    | [] => none
    | token => some token
  else none

/-- The value of the header that carries a token. -/
def valueFor (token : List Char) : String := String.ofList (scheme ++ token)

/-- The caller, when the request carries an accepted token. -/
def caller? (mac : Token.Mac) (secret : List UInt8) (now : Nat) (headers : List Header) :
    Option UserId := do
  let value ← header? headerName headers
  Token.check mac secret now (← tokenIn? value.toList)

end Access
end Matchmaking
