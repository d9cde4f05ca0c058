import Matchmaking.Startup.Boot
import Matchmaking.Json.Printer
/-! The command line: a rehearsed start in the current directory. It reads the files and the
variables that the service would read, says what the service would say, and ends with its code. A
database is taken to answer when its address is one of PostgreSQL. -/
open Matchmaking

def variableNames : List String :=
  let sections := [("server", Settings.Server.fields.fields),
    ("database", Settings.Database.fields.fields), ("auth", Settings.Auth.fields.fields),
    ("notifications", Settings.Notifications.fields.fields),
    ("photos", Settings.Photos.fields.fields), ("matching", Settings.Matching.fields.fields),
    ("logging", Settings.Logging.fields.fields)]
  let names := sections.flatMap fun s =>
    s.2.map fun f => ("spark__" ++ s.1 ++ "__" ++ f.name).toUpper
  Setting.databaseVariable :: "LOG_LEVEL" :: "LOG_FORMAT" :: "RUST_LOG" :: names

def readVariables : List String → IO (List Setting.Variable)
  | [] => return []
  | name :: rest => do
    let others ← readVariables rest
    return ((← IO.getEnv name).map fun value => (name, value)).toList ++ others

def readIfPresent (file : String) : IO (Option String) := do
  try return some (← IO.FS.readFile file) catch _ => return none

def lineOf (pretty : Bool) (m : Log.Message) : String :=
  if pretty then m.level.name ++ " " ++ m.text
  else (Json.ofFields [("level", .text m.level.name),
    ("fields", Json.ofFields [("message", .text m.text)])]).render

def main : IO UInt32 := do
  let place : Startup.Place :=
    { defaults := (← readIfPresent "config/default.json").map String.toList
      overrides := (← readIfPresent "config/local.json").map String.toList
      variableFile := (← readIfPresent ".env").getD ""
      env := ← readVariables variableNames
      databaseAnswers := fun url =>
        "postgres://".isPrefixOf url || "postgresql://".isPrefixOf url }
  let record := place.record
  for m in record.messages do IO.println (lineOf record.pretty m)
  return UInt32.ofNat record.code
