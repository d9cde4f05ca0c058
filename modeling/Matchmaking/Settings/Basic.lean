import Matchmaking.Settings.Section
/-! The settings of the service, section by section, and their loading. Of several sources the
later one wins, key by key: the file of defaults, the file of the place, the environment, and last
the variable that names the database. -/
namespace Matchmaking
namespace Settings

open Setting (Section Decoded string nat)
open Setting.Section (needs may filled)

structure Server where
  host : String
  port : Nat
  workers : Option Nat
  deriving DecidableEq, Repr

def Server.fields : Section Server :=
  Server.mk <$> needs "host" string <*> needs "port" (nat 16) <*> may "workers" (nat 64)

structure Database where
  url : String
  maxConnections : Option Nat
  minConnections : Option Nat
  acquireTimeoutSecs : Option Nat
  idleTimeoutSecs : Option Nat
  deriving DecidableEq, Repr

def Database.fields : Section Database :=
  Database.mk <$> needs "url" string <*> may "max_connections" (nat 32) <*>
    may "min_connections" (nat 32) <*> may "acquire_timeout_secs" (nat 64) <*>
    may "idle_timeout_secs" (nat 64)

structure Auth where
  /-- The secret that access tokens are signed with. -/
  jwtSecret : String
  deriving DecidableEq, Repr

def Auth.fields : Section Auth := Auth.mk <$> needs "jwt_secret" string

structure Notifications where
  endpoint : String
  timeoutSecs : Nat
  deriving DecidableEq, Repr

def Notifications.fields : Section Notifications :=
  Notifications.mk <$> needs "endpoint" string <*> filled "timeout_secs" (nat 64) 5

/-- The time after which the gateway is given up. -/
def Notifications.timeoutMillis (n : Notifications) : Nat := n.timeoutSecs * 1000

structure Photos where
  baseUrl : String
  deriving DecidableEq, Repr

def Photos.fields : Section Photos := Photos.mk <$> needs "base_url" string

structure Matching where
  maxSelectionRetries : Nat := 3
  requestTimeoutMs : Nat := 10000
  deriving DecidableEq, Repr

def Matching.fields : Section Matching :=
  (fun retries timeout => ⟨retries, timeout⟩) <$> filled "max_selection_retries" (nat 32) 3 <*>
    filled "request_timeout_ms" (nat 64) 10000

/-- The whole seconds after which a request is given up. -/
def Matching.requestTimeoutSecs (m : Matching) : Nat := m.requestTimeoutMs / 1000

structure Logging where
  level : String := "info"
  format : String := "json"
  deriving DecidableEq, Repr

def Logging.fields : Section Logging :=
  (fun level format => ⟨level, format⟩) <$> filled "level" string "info" <*>
    filled "format" string "json"

end Settings

structure Settings where
  server : Settings.Server
  database : Settings.Database
  auth : Settings.Auth
  notifications : Settings.Notifications
  photos : Settings.Photos
  matching : Settings.Matching := {}
  logging : Settings.Logging := {}
  deriving DecidableEq, Repr

namespace Settings

open Setting (Section)
open Setting.Section (needs filled)

def fields : Section Settings :=
  Settings.mk <$> needs "server" (Server.fields.decode "ServerSettings") <*>
    needs "database" (Database.fields.decode "DatabaseSettings") <*>
    needs "auth" (Auth.fields.decode "AuthSettings") <*>
    needs "notifications" (Notifications.fields.decode "NotificationSettings") <*>
    needs "photos" (Photos.fields.decode "PhotoSettings") <*>
    filled "matching" (Matching.fields.decode "MatchingSettings") {} <*>
    filled "logging" (Logging.fields.decode "LoggingSettings") {}

def ofTree (tree : Setting) : Except LoadError Settings := fields.decode "Settings" tree

/-- Settings from the texts of files and from the environment. -/
def ofSources (files : List (List Char)) (env : List Setting.Variable) :
    Except LoadError Settings := do
  let fromFiles ← files.mapM Setting.ofFile
  ofTree (.ofAssignments (fromFiles.flatten ++ Setting.ofEnvironment env ++
    Setting.ofDatabaseVariable env))

/-- Settings by the two usual files, neither of which has to exist. -/
def load (defaults overrides : Option (List Char)) (env : List Setting.Variable) :
    Except LoadError Settings :=
  ofSources (defaults.toList ++ overrides.toList) env

/-- Settings by one file, which has to exist. -/
def loadFrom (file : Option (List Char)) (env : List Setting.Variable) :
    Except LoadError Settings :=
  match file with
  | some text => ofSources [text] env
  | none => .error .noFile

end Settings
end Matchmaking
