import Matchmaking.Json.Numeral
/-! JSON values as a reader meets them. Members keep their order and repetitions, numbers keep their
digits. Two leaves stand for faults: `unpaired` for a string token that names half of a surrogate
pair and so denotes no text, and `broken` for the place where a text stops being JSON. Decoding a
record from such a value meets the faults in the order of the text. -/
namespace Matchmaking

inductive Json
  | null
  | bool (value : Bool)
  | number (value : Numeral)
  | text (value : String)
  | unpaired
  | array (items : List Json)
  /-- A key is absent where its string token denotes no text. -/
  | object (members : List (Option String × Json))
  | broken
  deriving Inhabited, Repr

namespace Json

def ofNat (n : Nat) : Json := .number (.ofNat n)

/-- The value of a string token. -/
def ofText : Option String → Json
  | some s => .text s
  | none => .unpaired

/-- A finite double as a number, any other as null. -/
def ofFloat (x : Float) : Json :=
  match Numeral.ofFloat? x with
  | some n => .number n
  | none => .null

def ofOption {α : Type} (write : α → Json) : Option α → Json
  | some a => write a
  | none => .null

/-- An object with the given members. -/
def ofFields (members : List (String × Json)) : Json :=
  .object (members.map fun m => (some m.1, m.2))

mutual

/-- The text that the value was read from is JSON to its end. -/
def intact : Json → Bool
  | .broken => false
  | .array items => intactItems items
  | .object members => intactMembers members
  | _ => true

def intactItems : List Json → Bool
  | [] => true
  | v :: rest => v.intact && intactItems rest

def intactMembers : List (Option String × Json) → Bool
  | [] => true
  | (_, v) :: rest => v.intact && intactMembers rest

end

mutual

/-- Every string denotes a text, every number has a double, and arrays and objects are nested at
most `depth` deep. -/
def denotesWithin (depth : Nat) : Json → Bool
  | .broken | .unpaired => false
  | .number n => n.toFloat?.isSome
  | .array items => 0 < depth && itemsDenoteWithin (depth - 1) items
  | .object members => 0 < depth && membersDenoteWithin (depth - 1) members
  | _ => true

def itemsDenoteWithin (depth : Nat) : List Json → Bool
  | [] => true
  | v :: rest => v.denotesWithin depth && itemsDenoteWithin depth rest

def membersDenoteWithin (depth : Nat) : List (Option String × Json) → Bool
  | [] => true
  | (k, v) :: rest => k.isSome && v.denotesWithin depth && membersDenoteWithin depth rest

end

/-- The value of the last member of that name. -/
def lookup? (key : String) (members : List (Option String × Json)) : Option Json :=
  (members.reverse.find? fun m => m.1 == some key).map Prod.snd

end Json
end Matchmaking
