import Matchmaking.Json.Basic
import Matchmaking.Json.Quoted
/-! Reading JSON. The reader always gives a value: where the text stops being JSON it leaves
`broken` behind and goes no further. -/
namespace Matchmaking
namespace Json

def isSpace (c : Char) : Bool := c = ' ' || c = '\t' || c = '\n' || c = '\r'

def skipSpace (s : List Char) : List Char := s.dropWhile isSpace

def words : List (List Char × Json) :=
  [("null".toList, .null), ("true".toList, .bool true), ("false".toList, .bool false)]

/-- A word or a number. -/
def readPlain (s : List Char) : Json × Option (List Char) :=
  match words.find? fun w => w.1.isPrefixOf s with
  | some (w, v) => (v, some (s.drop w.length))
  | none =>
    match Numeral.read? s with
    | some (n, rest) => (.number n, some rest)
    | none => (.broken, none)

mutual

/-- A value and what follows it, nothing where the text broke off. The first argument bounds the
number of values, lists and members entered. -/
def readValue : Nat → List Char → Json × Option (List Char)
  | 0, _ => (.broken, none)
  | n + 1, s =>
    match skipSpace s with
    | '\x7b' :: r =>
      match skipSpace r with
      | '\x7d' :: r => (.object [], some r)
      | r => let (members, rest) := readMembers n r; (.object members, rest)
    | '[' :: r =>
      match skipSpace r with
      | ']' :: r => (.array [], some r)
      | r => let (items, rest) := readItems n r; (.array items, rest)
    | '"' :: r =>
      match Quoted.read? r with
      | some (t, r) => (ofText t, some r)
      | none => (.broken, none)
    | s => readPlain s

/-- The items of an array up to its closing bracket. -/
def readItems : Nat → List Char → List Json × Option (List Char)
  | 0, _ => ([.broken], none)
  | n + 1, s =>
    match readValue n s with
    | (v, none) => ([v], none)
    | (v, some r) =>
      match skipSpace r with
      | ']' :: r => ([v], some r)
      | ',' :: r => let (items, rest) := readItems n r; (v :: items, rest)
      | _ => ([v, .broken], none)

/-- The members of an object up to its closing brace. -/
def readMembers : Nat → List Char → List (Option String × Json) × Option (List Char)
  | 0, _ => ([(none, .broken)], none)
  | n + 1, s =>
    match skipSpace s with
    | '"' :: r =>
      match Quoted.read? r with
      | none => ([(none, .broken)], none)
      | some (k, r) =>
        match skipSpace r with
        | ':' :: r =>
          match readValue n r with
          | (v, none) => ([(k, v)], none)
          | (v, some r) =>
            match skipSpace r with
            | '\x7d' :: r => ([(k, v)], some r)
            | ',' :: r => let (members, rest) := readMembers n r; ((k, v) :: members, rest)
            | _ => ([(k, v), (none, .broken)], none)
        | _ => ([(k, .broken)], none)
    | _ => ([(none, .broken)], none)

end

/-- A text read as JSON: its value, and whether nothing but space follows it. -/
structure Document where
  value : Json
  ended : Bool
  deriving Repr

def read (s : List Char) : Document :=
  match readValue (2 * s.length + 2) s with
  | (v, some rest) => ⟨v, skipSpace rest == []⟩
  | (v, none) => ⟨v, false⟩

/-- The value of a text that is JSON from end to end. -/
def read? (s : List Char) : Option Json :=
  let d := read s
  if d.ended then some d.value else none

end Json
end Matchmaking
