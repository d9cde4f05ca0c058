import Matchmaking.Settings.Source
import Matchmaking.Decimal.Shortest
/-! Sections of settings with fixed fields. Values that are there are checked before missing ones
are looked for, in the order of the fields. A section may also be given as a list of its fields in
order. -/
namespace Matchmaking

/-- A path as a key, with dots between names and brackets around indexes. -/
def Setting.Path.text : Setting.Path → String
  | [] => ""
  | [.key name] => name
  | .key name :: .key other :: rest => name ++ "." ++ text (.key other :: rest)
  | .key name :: rest => name ++ text rest
  | .item index :: rest => "[" ++ toString index ++ "]" ++ text rest

namespace LoadError

/-- The error as seen from where the value is one step away. -/
def under (step : Setting.Step) : LoadError → LoadError
  | type place => type (step :: place)
  | e => e

/-- The key of a value that cannot stand at its place. -/
def key? : LoadError → Option String
  | type place => some place.text
  | _ => none

def name : LoadError → String
  | fileParse => "FileParse"
  | noFile => "Foreign"
  | missing _ | notTable | tooShort _ _ _ => "Message"
  | type _ => "Type"

def message? : LoadError → Option String
  | missing field => some ("missing field `" ++ field ++ "`")
  | notTable => some "invalid type"
  | tooShort length name fields =>
    some ("invalid length " ++ toString length ++ ", expected struct " ++ name ++ " with " ++
      toString fields ++ (if fields = 1 then " element" else " elements"))
  | _ => none

end LoadError

namespace Setting

abbrev Decoded (α : Type) := Except LoadError α

/-- What a field is when it is not given. -/
inductive Absence
  | refused
  /-- Absent in a table; a list has to give it. -/
  | allowed
  /-- Has a declared default. -/
  | filled
  deriving DecidableEq

structure Field where
  name : String
  check : Setting → Decoded Unit
  absence : Absence

structure Section (α : Type) where
  fields : List Field
  build : Table → Decoded α

namespace Section

protected def pure {α : Type} (a : α) : Section α := ⟨[], fun _ => .ok a⟩

protected def seq {α β : Type} (f : Section (α → β)) (x : Section α) : Section β :=
  ⟨f.fields ++ x.fields, fun t => do let g ← f.build t; return g (← x.build t)⟩

/-- A field, and what it is when it is absent. -/
def field {α : Type} (name : String) (decode : Setting → Decoded α) (absence : Absence)
    (default : Decoded α) : Section α where
  fields := [⟨name, fun v => (decode v).map fun _ => (), absence⟩]
  build t :=
    match t.lookup name with
    | some v => (decode v).mapError (.under (.key name))
    | none => default

def needs {α : Type} (name : String) (decode : Setting → Decoded α) : Section α :=
  field name decode .refused (.error (.missing name))

/-- A field whose absence is a value of its own; null stands for it as well. -/
def may {α : Type} (name : String) (decode : Setting → Decoded α) : Section (Option α) :=
  field name
    (fun
      | .null => .ok none
      | v => (decode v).map some)
    .allowed (.ok none)

def filled {α : Type} (name : String) (decode : Setting → Decoded α) (default : α) : Section α :=
  field name decode .filled (.ok default)

/-- Checks the fields that a table has. -/
def check (fields : List Field) (t : Table) : Decoded Unit :=
  fields.forM fun f =>
    match t.lookup f.name with
    | some v => (f.check v).mapError (.under (.key f.name))
    | none => .ok ()

/-- Gives the items of a list to the fields in order, starting at that index. -/
def assign (name : String) (count : Nat) : Nat → List Field → List Setting → Decoded Table
  | _, [], _ => .ok []
  | i, f :: fields, [] =>
    if f.absence = .filled then assign name count (i + 1) fields []
    else .error (.tooShort i name count)
  | i, f :: fields, v :: items => do
    (f.check v).mapError (.under (.item i))
    return (f.name, v) :: (← assign name count (i + 1) fields items)

/-- Reads a section of that name. -/
def decode {α : Type} (s : Section α) (name : String) : Setting → Decoded α
  | .table t => do
    check s.fields t
    s.build t
  | .list items => do s.build (← assign name s.fields.length 0 s.fields items)
  | _ => .error .notTable

end Section

instance : Functor Section := ⟨fun f x => ⟨x.fields, fun t => (x.build t).map f⟩, fun a x =>
  ⟨x.fields, fun t => (x.build t).map fun _ => a⟩⟩

instance : Seq Section := ⟨fun f x => f.seq (x ())⟩

/-- A text. Booleans and numbers are written out. -/
def string : Setting → Decoded String
  | .text s => .ok s
  | .flag b => .ok (if b then "true" else "false")
  | .int i => .ok (toString i)
  | .float x => .ok (Decimal.text x)
  | .null | .list _ | .table _ => .error (.type [])

def yesWords : List String := ["true", "on", "yes"]

def noWords : List String := ["false", "off", "no"]

/-- A text as a number: words for one and zero, or digits. -/
def natOfText? (s : String) : Option Nat :=
  let word := Text.lowerCase s
  if yesWords.contains word then some 1
  else if noWords.contains word then some 0
  else Decimal.readNat? s.toList

/-- The value as a whole number that is not negative. A double is rounded, a half going away from
zero, and clamped to 64 bits. -/
def nat? : Setting → Option Nat
  | .int i => if 0 ≤ i then some i.toNat else none
  | .text s => natOfText? s
  | .flag b => some (if b then 1 else 0)
  | .float x => some x.round.toUInt64.toNat
  | .null | .list _ | .table _ => none

/-- A whole number of that many bits, at most 64. -/
def nat (bits : Nat) (v : Setting) : Decoded Nat :=
  match nat? v with
  | some n => if n < twoTo bits then .ok n else .error (.type [])
  | none => .error (.type [])

end Setting
end Matchmaking
