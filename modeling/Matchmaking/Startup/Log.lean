import Matchmaking.Text.LowerCase
import Matchmaking.Text.Utf8
import Matchmaking.Decimal.Read
/-! Messages of the service and the filters that let them through. A filter is a list of
directives; each is a level, for everything or for the targets that start with a name. Of those
that apply to a message the one with the longest name decides. -/
namespace Matchmaking
namespace Log

/-- Levels of messages. -/
inductive Level
  | error
  | info
  deriving DecidableEq, Repr

def Level.name : Level → String
  | error => "ERROR"
  | info => "INFO"

/-- How talkative each level is, out of five. -/
def Level.verbosity : Level → Nat
  | error => 1
  | info => 3

structure Message where
  level : Level
  /-- The part of the service that speaks. -/
  target : String
  text : String
  deriving DecidableEq, Repr

structure Directive where
  /-- Messages of at most this verbosity pass. -/
  verbosity : Nat
  /-- The start of the targets that are meant; empty for all of them. -/
  target : List Char := []
  deriving DecidableEq, Repr

abbrev Filter := List Directive

def levelNames : List (List Char) :=
  ["off", "error", "warn", "info", "debug", "trace"].map String.toList

/-- A level by its name, in any case, or by its digit. -/
def readVerbosity? (s : List Char) : Option Nat :=
  match levelNames.idxOf? (s.map Char.toLower) with
  | some n => some n
  | none =>
    match s with
    | [_] => (Decimal.readDigits? s).filter (· ≤ 5)
    | _ => none

def isTargetChar (c : Char) : Bool := c.isAlphanum || c = '_' || c = ':' || c = '-'

/-- The verbosity of a directive that gives no level. -/
def everything : Nat := 5

def Directive.read? (s : List Char) : Option Directive :=
  match readVerbosity? s with
  | some verbosity => some { verbosity }
  | none =>
    let target := s.takeWhile isTargetChar
    if target = [] then none
    else
      match s.dropWhile isTargetChar with
      | [] => some ⟨everything, target⟩
      | ['='] => some ⟨everything, target⟩
      | '=' :: level => (readVerbosity? level).map fun verbosity => ⟨verbosity, target⟩
      | _ => none

/-- The directives of a text, separated by commas. -/
def parts (s : String) : List (List Char) := (Text.splitAt ',' s.toList).filter (· != [])

namespace Filter

/-- Reads a filter in which every directive is well formed. -/
def read? (s : String) : Option Filter := (parts s).mapM Directive.read?

/-- Reads a filter and leaves faulty directives out. -/
def readLeniently (s : String) : Filter := (parts s).filterMap Directive.read?

def applies (d : Directive) (target : String) : Bool := d.target.isPrefixOf target.toList

/-- The deciding one of two directives that apply; of two alike the later one. -/
def closer (best : Option Directive) (d : Directive) : Option Directive :=
  match best with
  | none => some d
  | some b => if b.target.length ≤ d.target.length then some d else some b

/-- The verbosity up to which messages of a target pass. An empty filter lets errors through. -/
def limit (f : Filter) (target : String) : Nat :=
  if f = [] then Level.error.verbosity
  else ((f.filter (applies · target)).foldl closer none).elim 0 Directive.verbosity

def passes (f : Filter) (m : Message) : Bool := m.level.verbosity ≤ limit f m.target

end Filter
end Log
end Matchmaking
