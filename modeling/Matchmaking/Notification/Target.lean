import Matchmaking.Text.Percent
/-! The target of a request, as a client normalises the path and the query of an address: dots as
segments are resolved, characters that may not stand there are percent-encoded, and the fragment
is left out. -/
namespace Matchmaking
namespace Target

/-- Blanks and control characters at the ends of an address do not belong to it. -/
def isPadding (c : Char) : Bool := c.toNat ≤ 32

/-- Characters that are dropped wherever they stand. -/
def isDropped (c : Char) : Bool := c = '\t' || c = '\n' || c = '\r'

def isControl (c : Char) : Bool := c.toNat < 32 || 126 < c.toNat

def escapedInPath (c : Char) : Bool := isControl c || " \"<>?#\x60\x7b\x7d".toList.contains c

def escapedInQuery (c : Char) : Bool := isControl c || " \"<>#'".toList.contains c

/-- A segment with its escaped dots written out. -/
def plainDots : List Char → List Char
  | '%' :: '2' :: 'e' :: rest => '.' :: plainDots rest
  | '%' :: '2' :: 'E' :: rest => '.' :: plainDots rest
  | c :: rest => c :: plainDots rest
  | [] => []

/-- Goes through segments, keeping those already resolved in reverse. A dot segment at the end
leaves an empty one. -/
def resolve (done : List (List Char)) : List (List Char) → List (List Char)
  | [] => done.reverse
  | segment :: rest =>
    let dots := plainDots segment
    let closing := if rest = [] then [[]] else []
    if dots = "..".toList then resolve (closing ++ done.drop 1) rest
    else if dots = ".".toList then resolve (closing ++ done) rest
    else resolve (Text.percentEncode escapedInPath segment :: done) rest

def slashed (s : List Char) : List Char := s.map fun c => if c = '\\' then '/' else c

/-- The path of a target, which starts with a slash. -/
def path (s : List Char) : List Char :=
  let segments := match Text.splitAt '/' (slashed s) with
    | [] :: rest => rest
    | segments => segments
  '/' :: ['/'].intercalate (resolve [] segments)

def ofPath (s : String) : String :=
  let s := s.toList.reverse.dropWhile isPadding |>.reverse |>.filter fun c => !isDropped c
  let s := s.takeWhile (· != '#')
  String.ofList <| path (s.takeWhile (· != '?')) ++
    Text.percentEncode escapedInQuery (s.dropWhile (· != '?'))

end Target
end Matchmaking
