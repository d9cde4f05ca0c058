import Matchmaking.Json.Basic
import Matchmaking.Json.Quoted
/-! Writing JSON without space between tokens. -/
namespace Matchmaking
namespace Json

/-- The token of a key; an absent one, which no writer makes, is written as an unpaired escape. -/
def printKey : Option String → List Char
  | some k => Quoted.write k.toList
  | none => "\"\\ud800\"".toList

mutual

/-- The text of a value. A broken value has none. -/
def print : Json → List Char
  | .null => "null".toList
  | .bool b => if b then "true".toList else "false".toList
  | .number n => n.print
  | .text s => Quoted.write s.toList
  | .unpaired => printKey none
  | .array [] => ['[', ']']
  | .array (v :: rest) => '[' :: (v.print ++ printItems rest)
  | .object [] => ['\x7b', '\x7d']
  | .object ((k, v) :: rest) => '\x7b' :: (printKey k ++ ':' :: (v.print ++ printMembers rest))
  | .broken => []

/-- The items after the first one and the closing bracket. -/
def printItems : List Json → List Char
  | [] => [']']
  | v :: rest => ',' :: (v.print ++ printItems rest)

/-- The members after the first one and the closing brace. -/
def printMembers : List (Option String × Json) → List Char
  | [] => ['\x7d']
  | (k, v) :: rest => ',' :: (printKey k ++ ':' :: (v.print ++ printMembers rest))

end

def render (v : Json) : String := String.ofList v.print

end Json
end Matchmaking
