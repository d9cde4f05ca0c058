import Matchmaking.Json.Basic
/-! Records read from JSON. A record is given by its fields in order; each field has a name, other
names it also answers to, a check of its value, and a mark whether it may be missing. Members are
gone through in the order of the text: a field named twice is refused at its second name, a value
is checked where it stands, unknown members are skipped. Only after the last member are missing
fields looked for, in the order of the record. A record may also be written as an array of its
fields in order, without its trailing optional ones. -/
namespace Matchmaking

/-- Why a value is no record of the asked type. -/
inductive DecodeError
  | missing (field : String)
  | duplicate (field : String)
  | unknownName
  | invalid
  deriving DecidableEq, Repr

def DecodeError.message : DecodeError → String
  | missing field => "missing field `" ++ field ++ "`"
  | duplicate field => "duplicate field `" ++ field ++ "`"
  | unknownName => "unknown variant"
  | invalid => "invalid"

namespace Json

abbrev Decoded (α : Type) := Except DecodeError α

structure Field where
  name : String
  aliases : List String := []
  check : Json → Decoded Unit
  required : Bool

def Field.answers (f : Field) (key : String) : Bool := f.name == key || f.aliases.contains key

/-- Values found for the fields of a record, by field name. -/
abbrev Found := List (String × Json)

/-- The fields of a record and how its value is built from what was found for them. -/
structure Record (α : Type) where
  fields : List Field
  build : Found → Decoded α

namespace Record

protected def pure {α : Type} (a : α) : Record α := ⟨[], fun _ => .ok a⟩

protected def seq {α β : Type} (f : Record (α → β)) (x : Record α) : Record β :=
  ⟨f.fields ++ x.fields, fun found => do let g ← f.build found; return g (← x.build found)⟩

/-- A field that has to be there. -/
def needs {α : Type} (name : String) (decode : Json → Decoded α) (aliases : List String := []) :
    Record α where
  fields := [{ name, aliases, check := fun v => (decode v).map fun _ => (), required := true }]
  build found :=
    match found.lookup name with
    | some v => decode v
    | none => .error (.missing name)

/-- A field with a value for when it is missing. -/
def may {α : Type} (name : String) (decode : Json → Decoded α) (default : α) : Record α where
  fields := [{ name, check := fun v => (decode v).map fun _ => (), required := false }]
  build found :=
    match found.lookup name with
    | some v => decode v
    | none => .ok default

/-- Goes through the members of an object and keeps those that belong to a field. -/
def collect (fields : List Field) (found : Found) : List (Option String × Json) → Decoded Found
  | [] => .ok found
  | (none, _) :: _ => .error .invalid
  | (some key, v) :: rest =>
    match fields.find? (·.answers key) with
    | some f =>
      if (found.lookup f.name).isSome then .error (.duplicate f.name)
      else do
        f.check v
        collect fields ((f.name, v) :: found) rest
    | none => if v.intact then collect fields found rest else .error .invalid

/-- Gives the items of an array to the fields in order. -/
def assign : List Field → List Json → Decoded Found
  | [], [] => .ok []
  | [], _ :: _ => .error .invalid
  | f :: fields, [] => if f.required then .error .invalid else assign fields []
  | f :: fields, v :: items => do
    f.check v
    return (f.name, v) :: (← assign fields items)

/-- Reads a record written as an object. -/
def ofObject {α : Type} (r : Record α) : Json → Decoded α
  | .object members => do r.build (← collect r.fields [] members)
  | _ => .error .invalid

/-- Reads a record written as an object or as an array. -/
def decode {α : Type} (r : Record α) : Json → Decoded α
  | .array items => do r.build (← assign r.fields items)
  | v => r.ofObject v

end Record

instance : Functor Record := ⟨fun f x => ⟨x.fields, fun found => (x.build found).map f⟩, fun a x =>
  ⟨x.fields, fun found => (x.build found).map fun _ => a⟩⟩

instance : Seq Record := ⟨fun f x => f.seq (x ())⟩

/-- A whole number below a bound, written as an integer token. -/
def natBelow (bound : Nat) : Json → Decoded Nat
  | .number n =>
    match n.toNat? with
    | some k => if k < bound then .ok k else .error .invalid
    | none => .error .invalid
  | _ => .error .invalid

def string : Json → Decoded String
  | .text s => .ok s
  | _ => .error .invalid

def boolean : Json → Decoded Bool
  | .bool b => .ok b
  | _ => .error .invalid

/-- Any number token whose value a double can hold. -/
def double : Json → Decoded Float
  | .number n => n.toFloat?.elim (.error .invalid) .ok
  | _ => .error .invalid

/-- Null stands for an absent value. -/
def nullable {α : Type} (decode : Json → Decoded α) : Json → Decoded (Option α)
  | .null => .ok none
  | v => (decode v).map some

def list {α : Type} (decode : Json → Decoded α) : Json → Decoded (List α)
  | .array items => items.mapM decode
  | _ => .error .invalid

/-- A name out of a fixed set, written as a text or as an object with that one key and null. -/
def named {α : Type} (ofName? : String → Option α) : Json → Decoded α
  | .text s => (ofName? s).elim (.error .unknownName) .ok
  | .object ((some key, v) :: rest) =>
    match ofName? key, v, rest with
    | none, _, _ => .error .unknownName
    | some a, .null, [] => .ok a
    | some _, _, _ => .error .invalid
  | _ => .error .invalid

end Json
end Matchmaking
