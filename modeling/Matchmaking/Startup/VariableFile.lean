import Matchmaking.Settings.Source
import Matchmaking.Text.Blank
import Matchmaking.Text.Utf8
/-! Files of variables: lines with a name, an equals sign and a value. A value may be quoted, may
hold escapes and the values of other variables, and ends before a comment. The variables of a file
do not replace those that are already set; a line that cannot be read ends the file. -/
namespace Matchmaking
namespace VariableFile

open Setting (Variable)

/-- How the next character of a value is taken. -/
inductive Mode
  | plain
  /-- Between single quotes, where every character stands for itself. -/
  | strong
  | escaped
  /-- In the name of a variable after a dollar sign. -/
  | name (read : List Char)
  /-- In such a name between braces. -/
  | braced (read : List Char)
  /-- After a blank, where only a comment may follow. -/
  | ended
  | comment
  deriving DecidableEq, Repr

/-- How far a value has been read. -/
structure Reading where
  mode : Mode := .plain
  /-- Between double quotes. -/
  weak : Bool := false
  output : List Char := []
  deriving Repr

/-- Letters and digits. Beyond ASCII everything but blanks counts as a letter. -/
def isNameChar (c : Char) : Bool := c.isAlphanum || (128 ≤ c.toNat && !Text.isBlank c)

def gap (c : Char) : Bool := c = ' ' || c = '\t'

namespace Reading

variable (env : List Variable)

def push (r : Reading) (c : Char) : Reading := { r with output := r.output ++ [c] }

def within (r : Reading) (mode : Mode) : Reading := { r with mode }

/-- Puts the value of a variable in; an unknown one has none. -/
def substitute (r : Reading) (name : List Char) : Reading :=
  let value := (env.lookup (String.ofList name)).getD ""
  { r with mode := .plain, output := r.output ++ value.toList }

def escapes : List (Char × Char) :=
  [('\\', '\\'), ('\'', '\''), ('"', '"'), ('$', '$'), (' ', ' '), ('n', '\n')]

def stepPlain (r : Reading) (c : Char) : Reading :=
  if c = '$' then r.within (.name [])
  else if c = '\\' then r.within .escaped
  else if c = '"' then { r with weak := !r.weak }
  else if r.weak then r.push c
  else if c = '\'' then r.within .strong
  else if gap c then r.within .ended
  else r.push c

/-- Takes one more character; none when it cannot stand there. -/
def step? (r : Reading) (c : Char) : Option Reading :=
  match r.mode with
  | .plain => some (r.stepPlain c)
  | .strong => some (if c = '\'' then r.within .plain else r.push c)
  | .escaped => (escapes.lookup c).map fun e => (r.within .plain).push e
  | .name read =>
    if isNameChar c then some (r.within (.name (read ++ [c])))
    else if c = '\x7b' ∧ read = [] then some (r.within (.braced []))
    else if c = '$' then some ((r.substitute env read).within (.name []))
    else some ((r.substitute env read).push c)
  | .braced read =>
    if c = '\x7d' then some (r.substitute env read)
    else some (r.within (.braced (read ++ [c])))
  | .ended => if gap c then some r else if c = '#' then some (r.within .comment) else none
  | .comment => some r

/-- The value, where no quote and no brace is left open. -/
def finish? (r : Reading) : Option String :=
  if r.weak then none
  else
    match r.mode with
    | .strong | .braced _ => none
    | .name read => some (String.ofList (r.substitute env read).output)
    | _ => some (String.ofList r.output)

end Reading

def readValue? (env : List Variable) (s : List Char) : Option String := do
  let r ← s.foldlM (Reading.step? env) {}
  r.finish? env

/-- The name that a text starts with. -/
def readName? (s : List Char) : Option (List Char × List Char) :=
  let inName (c : Char) : Bool := c.isAlphanum || c = '_' || c = '.'
  if s.head?.any fun c => c.isAlpha || c = '_' then some (s.takeWhile inName, s.dropWhile inName)
  else none

def readEquals? (s : List Char) : Option (List Char) :=
  match Text.trimStart s with
  | '=' :: rest => some (Text.trimStart rest)
  | _ => none

def isEmptyOrComment (s : List Char) : Bool := s.head?.all (· == '#')

/-- A line: nothing, or a variable. The word `export` may precede the name. -/
def readLine? (env : List Variable) (line : List Char) : Option (Option Variable) := do
  let s := Text.trim line
  if isEmptyOrComment s then return none
  else
    let (name, rest) ← readName? s
    let (name, rest) ←
      if name = "export".toList ∧ (readEquals? rest).isNone then readName? (Text.trimStart rest)
      else some (name, rest)
    let rest ← readEquals? rest
    let value ← if isEmptyOrComment rest then some "" else readValue? env rest
    return some (String.ofList name, value)

/-- Sets a variable that is not set yet. -/
def add (env : List Variable) (v : Variable) : List Variable :=
  if (env.lookup v.1).isSome then env else env ++ [v]

/-- The environment after the lines up to the first one that cannot be read. -/
def loadLines (env : List Variable) : List (List Char) → List Variable
  | [] => env
  | line :: rest =>
    match readLine? env line with
    | none => env
    | some none => loadLines env rest
    | some (some v) => loadLines (add env v) rest

def load (env : List Variable) (text : String) : List Variable :=
  loadLines env (Text.splitAt '\n' text.toList)

end VariableFile
end Matchmaking
