import Matchmaking.Database.Row
/-! Queries to the database: the values bound to each, and what an answer of the database means.
Nothing is asked when an id cannot be bound. -/
namespace Matchmaking
namespace Database

/-- A value bound to a query. -/
inductive Bind
  | id (stored : Int64)
  | name (name : String)
  deriving DecidableEq

/-- What the database answers. -/
inductive Answer (ρ : Type)
  | rows (rows : List ρ)
  /-- The number of rows that an update changed. -/
  | affected (count : Nat)
  | failed (sqlstate : String)

namespace Answer

variable {ρ α : Type}

def failure : StoreError := .backend "the query failed"

def rows? : Answer ρ → Except StoreError (List ρ)
  | rows rs => .ok rs
  | affected _ => .ok []
  | failed _ => .error failure

def count? : Answer ρ → Except StoreError Nat
  | rows rs => .ok rs.length
  | affected n => .ok n
  | failed _ => .error failure

/-- The first row, where there may be none. -/
def first? (decode : ρ → Except StoreError α) (a : Answer ρ) : Except StoreError (Option α) := do
  match ← a.rows? with
  | [] => return none
  | r :: _ => return some (← decode r)

/-- The first row, where there has to be one. -/
def single (decode : ρ → Except StoreError α) (a : Answer ρ) : Except StoreError α := do
  match ← a.rows? with
  | [] => throw (.backend "no row")
  | r :: _ => decode r

/-- All rows, up to the first faulty one. -/
def all (decode : ρ → Except StoreError α) (a : Answer ρ) : Except StoreError (List α) := do
  (← a.rows?).mapM decode

end Answer

/-- A query whose answers have rows of a type `ρ` and stand for an `α`. -/
structure Query (ρ α : Type) where
  binds : Except StoreError (List Bind)
  interpret : Answer ρ → Except StoreError α

/-- How a query went: what was bound, whether the database was asked, and the outcome. -/
structure Exchange (α : Type) where
  binds : List Bind
  asked : Bool
  outcome : Except StoreError α

def Query.run {ρ α : Type} (q : Query ρ α) (answer : Answer ρ) : Exchange α :=
  match q.binds with
  | .ok binds => ⟨binds, true, q.interpret answer⟩
  | .error e => ⟨[], false, .error e⟩

def bindIds (ids : List Nat) : Except StoreError (List Bind) :=
  ids.mapM fun i => (toId i).map Bind.id

def profileOf (user : UserId) : Query ProfileRow (Option Profile) :=
  ⟨bindIds [user], Answer.first? ProfileRow.decode⟩

def preferencesOf (user : UserId) : Query PreferencesRow (Option Preferences) :=
  ⟨bindIds [user], Answer.first? PreferencesRow.decode⟩

def validUsers : Query (Cell Int64) (List UserId) := ⟨.ok [], Answer.all readId⟩

/-- The code by which the database refuses a second pending attempt of two people. -/
def uniqueViolation : String := "23505"

def createAttempt (first second : UserId) : Query AttemptRow Attempt where
  binds := bindIds [first, second]
  interpret
    | .failed sqlstate =>
      .error (if sqlstate = uniqueViolation then .pendingConflict first second else Answer.failure)
    | answer => answer.single AttemptRow.decode

/-- The pending or the latest attempt of two people; the database tells which. -/
def attemptOfPair (u v : UserId) : Query AttemptRow (Option Attempt) :=
  ⟨bindIds [u, v], Answer.first? AttemptRow.decode⟩

def finishAttempt (attempt : AttemptId) (state : State) : Query Unit Unit where
  binds := (bindIds [attempt]).map (· ++ [.name state.name])
  interpret answer := do
    if (← answer.count?) = 0 then throw (.notPending attempt)

def pendingOf (user : UserId) : Query AttemptRow (List Attempt) :=
  ⟨bindIds [user], Answer.all AttemptRow.decode⟩

def likerOf (user : UserId) : Query AttemptRow (Option Attempt) :=
  ⟨bindIds [user], Answer.first? AttemptRow.decode⟩

def appendEvent (attempt : AttemptId) (happening : Happening) : Query EventRow Event where
  binds := (bindIds [attempt]).map (· ++ [.name happening.name])
  interpret := Answer.single EventRow.decode

def lastEvent (attempt : AttemptId) : Query EventRow (Option Event) :=
  ⟨bindIds [attempt], Answer.first? EventRow.decode⟩

def photosOf (user : UserId) : Query (Cell String) (List String) :=
  ⟨bindIds [user], Answer.all present⟩

def createChat (first second : UserId) : Query ChatRow Chat :=
  ⟨bindIds [first, second], Answer.single ChatRow.decode⟩

/-- The database is well if it answers with a row. -/
def health : Query Unit Bool :=
  ⟨.ok [], fun answer => .ok (answer.single .ok).isOk⟩

end Database
end Matchmaking
