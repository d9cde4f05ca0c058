import Matchmaking.Startup.VariableFile
import Matchmaking.Startup.Log
import Matchmaking.Settings.Basic
/-! The start of the service: variables from their file, settings, the log, the database, and the
address to listen on. Whatever goes wrong ends the start with a message and a code. -/
namespace Matchmaking
namespace Startup

open Setting (Variable)
open Log (Message Filter)

/-- What the service finds when it is started. -/
structure Place where
  defaults : Option (List Char)
  overrides : Option (List Char)
  variableFile : String := ""
  env : List Variable
  /-- The addresses of databases that answer. -/
  databaseAnswers : String → Bool

namespace Place

/-- The environment with the variables of the file. -/
def environment (p : Place) : List Variable := VariableFile.load p.env p.variableFile

def settings (p : Place) : Except LoadError Settings :=
  Settings.load p.defaults p.overrides p.environment

/-- Level and format by the settings, for the case that they were loaded. -/
def logging (p : Place) : Settings.Logging :=
  match p.settings with
  | .ok s => s.logging
  | .error _ => {}

def level (p : Place) : String := (p.environment.lookup "LOG_LEVEL").getD p.logging.level

def format (p : Place) : String := (p.environment.lookup "LOG_FORMAT").getD p.logging.format

/-- The variable of a filter comes before the level, unless it is faulty. -/
def filter (p : Place) : Filter :=
  ((p.environment.lookup "RUST_LOG").bind Filter.read?).getD (Filter.readLeniently p.level)

end Place

/-- The targets of the service's own messages. -/
def serviceTarget : String := "spark_match"

def databaseTarget : String := "spark_match::services::postgres"

def say (text : String) : Message := ⟨.info, serviceTarget, text⟩

def complain (text : String) : Message := ⟨.error, serviceTarget, text⟩

/-- How a start ends. -/
inductive End
  /-- The service ran and was told to stop. -/
  | stopped
  | failed
  /-- The server cannot be set up at all. -/
  | panicked
  deriving DecidableEq, Repr

def End.code : End → Nat
  | stopped => 0
  | failed => 1
  | panicked => 101

/-- A pool without connections, or without time to wait for one, is of no use. -/
def canConnect (answers : String → Bool) (d : Settings.Database) : Bool :=
  answers d.url && d.maxConnections != some 0 && d.acquireTimeoutSecs != some 0

/-- The cause of a failed load, where it is told. -/
def causeText : LoadError → String
  | .missing field => ": " ++ ((LoadError.missing field).message?.getD "")
  | _ => ""

def matcherText (m : Settings.Matching) : String :=
  "Matcher initialized (selection retries: " ++ toString m.maxSelectionRetries ++
    ", request timeout: " ++ toString m.requestTimeoutMs ++ "ms)"

def serverText (s : Settings.Server) : String :=
  "Starting HTTP server on " ++ s.host ++ ":" ++ toString s.port

/-- The number of workers unless the settings tell it. -/
def defaultWorkers : Nat := 4

/-- The hosts that every machine can listen on. -/
def localHosts : List String := ["0.0.0.0", "127.0.0.1", "localhost", "::", "::1"]

/-- How serving ends. A server needs workers before it needs an address. -/
def serving (s : Settings.Server) : End :=
  if s.workers.getD defaultWorkers = 0 then .panicked
  else if localHosts.contains s.host then .stopped else .failed

/-- What is said from the moment that the database answers. -/
def serve (s : Settings) : List Message × End :=
  ([say "PostgreSQL client initialized", say (matcherText s.matching), say (serverText s.server)],
   serving s.server)

/-- What is said once the settings are loaded. -/
def connect (answers : String → Bool) (s : Settings) : List Message × End :=
  let start := [say "Configuration loaded successfully",
    ⟨.info, databaseTarget, "Connecting to PostgreSQL"⟩]
  if canConnect answers s.database then
    let (rest, ending) := serve s
    (start ++ rest, ending)
  else (start ++ [complain "Failed to connect to PostgreSQL"], .failed)

/-- All messages of a start and its end. -/
def Place.run (p : Place) : List Message × End :=
  let start := say "Starting Spark matching service..."
  match p.settings with
  | .ok s =>
    let (rest, ending) := connect p.databaseAnswers s
    (start :: rest, ending)
  | .error e => ([start, complain ("Failed to load configuration" ++ causeText e)], .failed)

/-- What a start shows: the form of its log, the messages that pass the filter, and its code. -/
structure Record where
  pretty : Bool
  messages : List Message
  code : Nat

def Place.record (p : Place) : Record :=
  let (messages, ending) := p.run
  ⟨p.format == "pretty", messages.filter p.filter.passes, ending.code⟩

def Record.form (r : Record) : String := if r.pretty then "pretty" else "json"

end Startup
end Matchmaking
