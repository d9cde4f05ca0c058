import Matchmaking.Settings.Tree
import Matchmaking.Decimal.Read
import Matchmaking.Json.Reader
/-! Where settings come from: files, the environment, and the variable that names the database.
Each source is a list of assignments to paths; later ones win. A key is read as a path where it
looks like one, with dots before the names of entries and brackets around the indexes of items. -/
namespace Matchmaking

/-- Why settings cannot be loaded. -/
inductive LoadError
  /-- A file is no object of JSON. -/
  | fileParse
  /-- A file that is needed cannot be read. -/
  | noFile
  | missing (field : String)
  | notTable
  /-- A list is too short for a section of so many fields. -/
  | tooShort (length : Nat) (name : String) (fields : Nat)
  /-- A value cannot stand at its place, which is given from the root on. -/
  | type (place : Setting.Path)
  deriving DecidableEq, Repr

namespace Setting

structure Assignment where
  path : Path
  value : Setting

namespace Path

def isNameChar (c : Char) : Bool := c.isAlphanum || c = ' ' || c = '_' || c = '-'

def isGap (c : Char) : Bool := c = ' ' || c = '\t'

/-- The index in brackets and what follows. -/
def readIndex? (s : List Char) : Option (Int × List Char) := do
  let s := s.dropWhile isGap
  let (negative, s) := match s with
    | '-' :: rest => (true, rest)
    | s => (false, s)
  let n ← Decimal.readDigits? (s.takeWhile Char.isDigit)
  match (s.dropWhile Char.isDigit).dropWhile isGap with
  | ']' :: rest => return (if negative then -(n : Int) else n, rest)
  | _ => none

/-- The steps after the first one. The first argument bounds their number. -/
def readSteps? : Nat → List Char → Option Path
  | _, [] => some []
  | n + 1, '.' :: rest =>
    let name := rest.takeWhile isNameChar
    if name = [] then none
    else (readSteps? n (rest.dropWhile isNameChar)).map (.key (String.ofList name) :: ·)
  | n + 1, '[' :: rest => do
    let (index, rest) ← readIndex? rest
    return .item index :: (← readSteps? n rest)
  | _, _ => none

/-- Reads a key as a path. -/
def read? (s : List Char) : Option Path :=
  let name := s.takeWhile isNameChar
  if name = [] then none
  else
    let rest := s.dropWhile isNameChar
    (readSteps? rest.length rest).map (.key (String.ofList name) :: ·)

/-- The path of a key, which stands for itself where it cannot be read as one. -/
def ofKey (key : String) : Path := (read? key.toList).getD [.key key]

end Path

/-- Whole numbers of 64 bits with a sign. -/
def fitsInt (n : Int) : Bool := -(twoTo 63 : Int) ≤ n && n < twoTo 63

def ofNumeral (n : Numeral) : Setting :=
  match n.toInt? with
  | some i => if fitsInt i then .int i else .float (n.toFloat?.getD 0)
  | none => .float (n.toFloat?.getD 0)

/-- Whether a key comes again in an object. -/
def isRepeated (key : Option String) (members : List (Option String × Json)) : Bool :=
  members.any fun m => m.1 == key

mutual

def ofJson : Json → Setting
  | .null | .unpaired | .broken => .null
  | .bool b => .flag b
  | .number n => ofNumeral n
  | .text s => .text s
  | .array items => .list (ofItems items)
  | .object members => .table (ofMembers members)

def ofItems : List Json → List Setting
  | [] => []
  | v :: rest => ofJson v :: ofItems rest

/-- The entries of an object, where the last one of a key counts. -/
def ofMembers : List (Option String × Json) → List (String × Setting)
  | [] => []
  | (key, v) :: rest =>
    if isRepeated key rest then ofMembers rest else (key.getD "", ofJson v) :: ofMembers rest

end

def maxDepth : Nat := 127

/-- The assignments of a file, one for each key of its object. A mark of byte order at its start
is left out. -/
def ofFile (text : List Char) : Except LoadError (List Assignment) :=
  let text := match text with
    | '\ufeff' :: rest => rest
    | text => text
  match Json.read? text with
  | some (.object members) =>
    if (Json.object members).denotesWithin maxDepth then
      .ok ((ofMembers members).map fun e => ⟨.ofKey e.1, e.2⟩)
    else .error .fileParse
  | _ => .error .fileParse

/-- A variable of the environment. -/
abbrev Variable := String × String

/-- The value of a variable, read as a boolean, a whole number or a double where possible. -/
def ofVariable (s : String) : Setting :=
  let lowered := Text.lowerCase s
  if lowered = "true" then .flag true
  else if lowered = "false" then .flag false
  else
    match Decimal.readInt? s.toList with
    | some i => if fitsInt i then .int i else .float ((Decimal.readFloat? s.toList).getD 0)
    | none => (Decimal.readFloat? s.toList).elim (.text s) .float

def variableStart : List Char := "spark__".toList

/-- Two underlines in a row separate the levels of a key. -/
def withDots : List Char → List Char
  | '_' :: '_' :: rest => '.' :: withDots rest
  | c :: rest => c :: withDots rest
  | [] => []

/-- The assignment of a variable whose name starts as names of settings do. -/
def ofNamed? (v : Variable) : Option Assignment :=
  let name := Text.lower v.1.toList
  if variableStart.isPrefixOf name then
    some ⟨.ofKey (String.ofList (withDots (name.drop variableStart.length))), ofVariable v.2⟩
  else none

def ofEnvironment (env : List Variable) : List Assignment := env.filterMap ofNamed?

/-- The variable that names the database. -/
def databaseVariable : String := "DATABASE_URL"

def databasePath : Path := [.key "database", .key "url"]

def ofDatabaseVariable (env : List Variable) : List Assignment :=
  (env.lookup databaseVariable).toList.map fun url => ⟨databasePath, .text url⟩

/-- The tree that assignments make, one after the other. -/
def ofAssignments (assignments : List Assignment) : Setting :=
  assignments.foldl (fun tree a => assign a.value a.path tree) (.table [])

end Setting
end Matchmaking
