/-! Media types, as a request names that of its body: a type and a subtype, then parameters. A
body counts as JSON when the subtype is `json`, alone or before or after its last plus sign. -/
namespace Matchmaking
namespace MediaType

def marks : List Char := "!#$%&'*+-.^_|~".toList ++ ['\x60']

def isTokenChar (c : Char) : Bool := c.isAlphanum || marks.contains c

/-- A character that a quoted value may hold. -/
def isQuotable (c : Char) : Bool := 32 ≤ c.toNat && c.toNat < 127

/-- Where in the list of parameters a reader is. -/
inductive Position
  | gap
  | name
  | equals
  | value
  | quote
  | quoted
  | closed
  deriving DecidableEq, Repr

namespace Position

/-- The position after one more character. A quoted value holds at least one character, which may
itself be a quote. -/
def step? : Position → Char → Option Position
  | gap, c => if c = ' ' then some gap else if isTokenChar c then some name else none
  | name, c => if c = '=' then some equals else if isTokenChar c then some name else none
  | equals, c => if c = '"' then some quote else if isTokenChar c then some value else none
  | value, c => if c = ';' then some gap else if isTokenChar c then some value else none
  | quote, c => if isQuotable c then some quoted else none
  | quoted, c => if c = '"' then some closed else if isQuotable c then some quoted else none
  | closed, c => if c = ' ' then some closed else if c = ';' then some gap else none

/-- The list may end here. -/
def isFinal : Position → Bool
  | gap | equals | value | closed => true
  | name | quote | quoted => false

end Position

/-- What may follow the subtype: nothing, or parameters after a semicolon. -/
def areParameters : List Char → Bool
  | [] => true
  | ';' :: rest => (rest.foldlM Position.step? .gap).any Position.isFinal
  | _ => false

def json : List Char := "json".toList

/-- A subtype without regard to case; a plus sign at its start belongs to the name. -/
def namesJson (subtype : List Char) : Bool :=
  let backwards := (subtype.map Char.toLower).reverse
  let suffix := (backwards.takeWhile (· != '+')).reverse
  let base := ((backwards.dropWhile (· != '+')).drop 1).reverse
  if base = [] then backwards.reverse == json else base == json || suffix == json

def isJson (value : List Char) : Bool :=
  match value.dropWhile isTokenChar with
  | '/' :: rest =>
    value.head?.any isTokenChar && namesJson (rest.takeWhile isTokenChar) &&
      areParameters (rest.dropWhile isTokenChar)
  | _ => false

end MediaType
end Matchmaking
