import Matchmaking.Settings.Basic
import Mathlib
/-! What settings are read from. A section reads as a value exactly if each of its fields has what
the value has there: a field that is needed from an entry, one that may be missing from an entry or
from none, and one with a default from an entry or from the default. -/
namespace Matchmaking
namespace Setting

section

variable {α : Type} (decode : Setting → Decoded α)

def Needed (given : Option Setting) (a : α) : Prop := ∃ v, given = some v ∧ decode v = .ok a

inductive Allowed : Option Setting → Option α → Prop
  | absent : Allowed none none
  | null : Allowed (some .null) none
  | given {v : Setting} {a : α} (isThere : v ≠ .null) (reads : decode v = .ok a) :
      Allowed (some v) (some a)

inductive Filled (default : α) : Option Setting → α → Prop
  | absent : Filled default none default
  | given {v : Setting} {a : α} (reads : decode v = .ok a) : Filled default (some v) a

end

namespace Section

variable {α β : Type} {s : Section α} {t : Table} {name : String}

@[simp] theorem mapError_eq_ok_iff {f : LoadError → LoadError} {d : Decoded α} {a : α} :
    d.mapError f = .ok a ↔ d = .ok a := by
  cases d <;> simp [Except.mapError]

section

variable {decode : Setting → Decoded α} {a : α}

@[simp] theorem needs_build_iff :
    (needs name decode).build t = .ok a ↔ Needed decode (t.lookup name) a := by
  cases value : t.lookup name <;> simp [needs, field, Needed, value]

@[simp] theorem filled_build_iff {default : α} :
    (filled name decode default).build t = .ok a ↔ Filled decode default (t.lookup name) a := by
  cases value : t.lookup name with
  | none =>
    simp only [filled, field, value, Except.ok.injEq]
    exact ⟨fun same => same ▸ .absent, fun filled => by cases filled; rfl⟩
  | some v =>
    simp only [filled, field, value, mapError_eq_ok_iff]
    exact ⟨.given, fun filled => by cases filled; assumption⟩

@[simp] theorem may_build_iff {a : Option α} :
    (may name decode).build t = .ok a ↔ Allowed decode (t.lookup name) a := by
  cases value : t.lookup name with
  | none =>
    simp only [may, field, value, Except.ok.injEq]
    exact ⟨fun same => same ▸ .absent, fun allowed => by cases allowed; rfl⟩
  | some v =>
    simp only [may, field, value, mapError_eq_ok_iff]
    split
    · rw [Except.ok.injEq]
      exact ⟨fun same => same ▸ .null, fun allowed => by cases allowed <;> trivial⟩
    · next isThere =>
      constructor
      · intro read
        cases reads : decode v with
        | ok a =>
          obtain rfl : some a = _ := by simpa [reads, Except.map] using read
          exact .given isThere reads
        | error e => simp [reads, Except.map] at read
      · intro allowed
        cases allowed with
        | null => exact absurd rfl isThere
        | given _ reads => simp [reads, Except.map]

end

@[simp] theorem map_build_iff {f : α → β} {b : β} :
    (f <$> s).build t = .ok b ↔ ∃ a, s.build t = .ok a ∧ f a = b := by
  change (s.build t).map f = .ok b ↔ _
  cases s.build t <;> simp [Except.map]

@[simp] theorem seq_build_iff {f : Section (α → β)} {b : β} :
    (f <*> s).build t = .ok b ↔
      ∃ g, f.build t = .ok g ∧ ∃ a, s.build t = .ok a ∧ g a = b := by
  change (do let g ← f.build t; return g (← s.build t)) = .ok b ↔ _
  cases f.build t <;> cases s.build t <;> simp [bind, Except.bind, pure, Except.pure]

section

variable {f : Field} {fields : List Field}

theorem check_cons_of_none (missing : t.lookup f.name = none) :
    check (f :: fields) t = check fields t := by
  rw [check, List.forM, missing]
  rfl

theorem check_cons_of_some {v : Setting} (value : t.lookup f.name = some v) :
    check (f :: fields) t =
      (f.check v).mapError (.under (.key f.name)) >>= fun _ => check fields t := by
  rw [check, List.forM, value]
  rfl

theorem check_eq_ok_iff :
    check fields t = .ok () ↔
      ∀ f ∈ fields, ∀ v, t.lookup f.name = some v → f.check v = .ok () := by
  induction fields with
  | nil => simp [check, pure, Except.pure]
  | cons f fields ih =>
    rw [List.forall_mem_cons, ← ih]
    cases value : t.lookup f.name with
    | none => simp [check_cons_of_none value]
    | some v =>
      rw [check_cons_of_some value]
      cases checked : f.check v <;> simp [Except.mapError, bind, Except.bind, checked]

end

/-- A table that the section is built from passes the checks of its fields. -/
def Sound (s : Section α) : Prop := ∀ t a, s.build t = .ok a → check s.fields t = .ok ()

theorem sound_field {decode : Setting → Decoded α} {absence : Absence} {default : Decoded α} :
    (field name decode absence default).Sound := by
  intro t a built
  rw [check_eq_ok_iff]
  simp only [field, List.mem_singleton, forall_eq]
  intro v value
  simp only [field, value, mapError_eq_ok_iff] at built
  simp [built, Except.map]

theorem Sound.map {f : α → β} (sound : s.Sound) : (f <$> s).Sound := by
  intro t b built
  obtain ⟨a, built, -⟩ := map_build_iff.mp built
  exact sound t a built

theorem Sound.seq {f : Section (α → β)} (first : f.Sound) (second : s.Sound) :
    (f <*> s).Sound := by
  intro t b built
  obtain ⟨g, firstBuilt, a, secondBuilt, -⟩ := seq_build_iff.mp built
  have firstChecked := check_eq_ok_iff.mp (first t g firstBuilt)
  have secondChecked := check_eq_ok_iff.mp (second t a secondBuilt)
  exact check_eq_ok_iff.mpr fun f among =>
    (List.mem_append.mp among).elim (firstChecked f) (secondChecked f)

theorem Sound.decode_table_iff (sound : s.Sound) {a : α} :
    s.decode name (.table t) = .ok a ↔ s.build t = .ok a := by
  have step : s.decode name (.table t) = check s.fields t >>= fun _ => s.build t := rfl
  rw [step]
  cases checked : check s.fields t with
  | ok => rfl
  | error e =>
    refine ⟨nofun, fun built => ?_⟩
    cases (sound t a built).symm.trans checked

/-- The section reads as a value exactly if the value is so related to what is given by name. -/
structure Reads (s : Section α) (P : (String → Option Setting) → α → Prop) : Prop where
  sound : s.Sound
  build_iff : ∀ t a, s.build t = .ok a ↔ P (t.lookup ·) a

namespace Reads

variable {P : (String → Option Setting) → α → Prop} {entry : Option Setting} {a default : α}

theorem decode_table_iff (reads : s.Reads P) :
    s.decode name (.table t) = .ok a ↔ P (t.lookup ·) a :=
  reads.sound.decode_table_iff.trans (reads.build_iff t a)

theorem needed_iff (reads : s.Reads P) (name : String) (needy : ∀ a, s.build [] ≠ .ok a)
    (isTable : ∀ v ∈ entry, ∃ t, v = .table t) :
    Needed (s.decode name) entry a ↔ P (fun key => entry.bind (·.entries.lookup key)) a := by
  cases entry with
  | none => exact ⟨nofun, fun read => (needy a ((reads.build_iff [] a).mpr read)).elim⟩
  | some v =>
    obtain ⟨t, rfl⟩ := isTable v rfl
    simp only [Needed, Option.some.injEq, exists_eq_left']
    exact reads.decode_table_iff

theorem filled_iff (reads : s.Reads P) (name : String) (filled : s.build [] = .ok default)
    (isTable : ∀ v ∈ entry, ∃ t, v = .table t) :
    Filled (s.decode name) default entry a ↔
      P (fun key => entry.bind (·.entries.lookup key)) a := by
  cases entry with
  | none =>
    have read : P (fun _ => none) a ↔ s.build [] = .ok a := (reads.build_iff [] a).symm
    simp only [Option.bind_none, read, filled, Except.ok.injEq]
    exact ⟨fun taken => by cases taken; rfl, fun same => same ▸ .absent⟩
  | some v =>
    obtain ⟨t, rfl⟩ := isTable v rfl
    have decoded : Filled (s.decode name) default (some (.table t)) a ↔
        s.decode name (.table t) = .ok a :=
      ⟨fun given => by cases given; assumption, .given⟩
    exact decoded.trans reads.decode_table_iff

end Reads

end Section
end Setting

namespace Settings

open Setting (Needed Allowed Filled string nat)
open Setting.Section

/-! ### Sections

`given` tells what entry, if any, a section has under a name. -/

structure Server.IsRead (given : String → Option Setting) (s : Server) : Prop where
  host : Needed string (given "host") s.host
  port : Needed (nat 16) (given "port") s.port
  workers : Allowed (nat 64) (given "workers") s.workers

structure Database.IsRead (given : String → Option Setting) (s : Database) : Prop where
  url : Needed string (given "url") s.url
  maxConnections : Allowed (nat 32) (given "max_connections") s.maxConnections
  minConnections : Allowed (nat 32) (given "min_connections") s.minConnections
  acquireTimeoutSecs : Allowed (nat 64) (given "acquire_timeout_secs") s.acquireTimeoutSecs
  idleTimeoutSecs : Allowed (nat 64) (given "idle_timeout_secs") s.idleTimeoutSecs

structure Auth.IsRead (given : String → Option Setting) (s : Auth) : Prop where
  jwtSecret : Needed string (given "jwt_secret") s.jwtSecret

structure Notifications.IsRead (given : String → Option Setting) (s : Notifications) : Prop where
  endpoint : Needed string (given "endpoint") s.endpoint
  timeoutSecs : Filled (nat 64) 5 (given "timeout_secs") s.timeoutSecs

structure Photos.IsRead (given : String → Option Setting) (s : Photos) : Prop where
  baseUrl : Needed string (given "base_url") s.baseUrl

structure Matching.IsRead (given : String → Option Setting) (s : Matching) : Prop where
  maxSelectionRetries : Filled (nat 32) 3 (given "max_selection_retries") s.maxSelectionRetries
  requestTimeoutMs : Filled (nat 64) 10000 (given "request_timeout_ms") s.requestTimeoutMs

structure Logging.IsRead (given : String → Option Setting) (s : Logging) : Prop where
  level : Filled string "info" (given "level") s.level
  format : Filled string "json" (given "format") s.format

theorem Server.reads : Server.fields.Reads Server.IsRead where
  sound := (sound_field.map.seq sound_field).seq sound_field
  build_iff t s := by
    simp only [Server.fields, seq_build_iff, map_build_iff, needs_build_iff, may_build_iff]
    constructor
    · rintro ⟨_, ⟨_, ⟨_, host, rfl⟩, _, port, rfl⟩, _, workers, rfl⟩
      exact ⟨host, port, workers⟩
    · rintro ⟨host, port, workers⟩
      exact ⟨_, ⟨_, ⟨_, host, rfl⟩, _, port, rfl⟩, _, workers, rfl⟩

theorem Database.reads : Database.fields.Reads Database.IsRead where
  sound := (((sound_field.map.seq sound_field).seq sound_field).seq sound_field).seq sound_field
  build_iff t s := by
    simp only [Database.fields, seq_build_iff, map_build_iff, needs_build_iff, may_build_iff]
    constructor
    · rintro ⟨_, ⟨_, ⟨_, ⟨_, ⟨_, url, rfl⟩, _, most, rfl⟩, _, least, rfl⟩, _, acquire, rfl⟩, _,
        idle, rfl⟩
      exact ⟨url, most, least, acquire, idle⟩
    · rintro ⟨url, most, least, acquire, idle⟩
      exact ⟨_, ⟨_, ⟨_, ⟨_, ⟨_, url, rfl⟩, _, most, rfl⟩, _, least, rfl⟩, _, acquire, rfl⟩, _,
        idle, rfl⟩

theorem Auth.reads : Auth.fields.Reads Auth.IsRead where
  sound := sound_field.map
  build_iff t s := by
    simp only [Auth.fields, map_build_iff, needs_build_iff]
    constructor
    · rintro ⟨_, secret, rfl⟩
      exact ⟨secret⟩
    · rintro ⟨secret⟩
      exact ⟨_, secret, rfl⟩

theorem Notifications.reads : Notifications.fields.Reads Notifications.IsRead where
  sound := sound_field.map.seq sound_field
  build_iff t s := by
    simp only [Notifications.fields, seq_build_iff, map_build_iff, needs_build_iff,
      filled_build_iff]
    constructor
    · rintro ⟨_, ⟨_, endpoint, rfl⟩, _, timeout, rfl⟩
      exact ⟨endpoint, timeout⟩
    · rintro ⟨endpoint, timeout⟩
      exact ⟨_, ⟨_, endpoint, rfl⟩, _, timeout, rfl⟩

theorem Photos.reads : Photos.fields.Reads Photos.IsRead where
  sound := sound_field.map
  build_iff t s := by
    simp only [Photos.fields, map_build_iff, needs_build_iff]
    constructor
    · rintro ⟨_, base, rfl⟩
      exact ⟨base⟩
    · rintro ⟨base⟩
      exact ⟨_, base, rfl⟩

theorem Matching.reads : Matching.fields.Reads Matching.IsRead where
  sound := sound_field.map.seq sound_field
  build_iff t s := by
    simp only [Matching.fields, seq_build_iff, map_build_iff, filled_build_iff]
    constructor
    · rintro ⟨_, ⟨_, retries, rfl⟩, _, timeout, rfl⟩
      exact ⟨retries, timeout⟩
    · rintro ⟨retries, timeout⟩
      exact ⟨_, ⟨_, retries, rfl⟩, _, timeout, rfl⟩

theorem Logging.reads : Logging.fields.Reads Logging.IsRead where
  sound := sound_field.map.seq sound_field
  build_iff t s := by
    simp only [Logging.fields, seq_build_iff, map_build_iff, filled_build_iff]
    constructor
    · rintro ⟨_, ⟨_, level, rfl⟩, _, format, rfl⟩
      exact ⟨level, format⟩
    · rintro ⟨level, format⟩
      exact ⟨_, ⟨_, level, rfl⟩, _, format, rfl⟩

/-! ### All settings -/

inductive Part
  | server
  | database
  | auth
  | notifications
  | photos
  | matching
  | logging
  deriving DecidableEq

def Part.name : Part → String
  | server => "server"
  | database => "database"
  | auth => "auth"
  | notifications => "notifications"
  | photos => "photos"
  | matching => "matching"
  | logging => "logging"

def Part.IsRead (entry : Option Setting) (s : Settings) : Part → Prop
  | server => Needed (Server.fields.decode "ServerSettings") entry s.server
  | database => Needed (Database.fields.decode "DatabaseSettings") entry s.database
  | auth => Needed (Auth.fields.decode "AuthSettings") entry s.auth
  | notifications =>
    Needed (Notifications.fields.decode "NotificationSettings") entry s.notifications
  | photos => Needed (Photos.fields.decode "PhotoSettings") entry s.photos
  | matching => Filled (Matching.fields.decode "MatchingSettings") {} entry s.matching
  | logging => Filled (Logging.fields.decode "LoggingSettings") {} entry s.logging

theorem reads :
    Settings.fields.Reads fun given s => ∀ part : Part, part.IsRead (given part.name) s where
  sound :=
    (((((sound_field.map.seq sound_field).seq sound_field).seq sound_field).seq sound_field).seq
      sound_field).seq sound_field
  build_iff t s := by
    simp only [Settings.fields, seq_build_iff, map_build_iff, needs_build_iff, filled_build_iff]
    constructor
    · rintro ⟨_, ⟨_, ⟨_, ⟨_, ⟨_, ⟨_, ⟨_, server, rfl⟩, _, database, rfl⟩, _, auth, rfl⟩, _,
        notifications, rfl⟩, _, photos, rfl⟩, _, matching, rfl⟩, _, logging, rfl⟩ part
      cases part <;> assumption
    · intro read
      exact ⟨_, ⟨_, ⟨_, ⟨_, ⟨_, ⟨_, ⟨_, read .server, rfl⟩, _, read .database, rfl⟩, _, read .auth,
        rfl⟩, _, read .notifications, rfl⟩, _, read .photos, rfl⟩, _, read .matching, rfl⟩, _,
        read .logging, rfl⟩

/-- What settings are, given the entries of each section. -/
structure AreGiven (given : String → String → Option Setting) (s : Settings) : Prop where
  server : s.server.IsRead (given "server")
  database : s.database.IsRead (given "database")
  auth : s.auth.IsRead (given "auth")
  notifications : s.notifications.IsRead (given "notifications")
  photos : s.photos.IsRead (given "photos")
  matching : s.matching.IsRead (given "matching")
  logging : s.logging.IsRead (given "logging")

def sectionNames : List String :=
  ["server", "database", "auth", "notifications", "photos", "matching", "logging"]

theorem AreGiven.congr {given given' : String → String → Option Setting} {s : Settings}
    (same : ∀ name ∈ sectionNames, given name = given' name) (areGiven : s.AreGiven given) :
    s.AreGiven given' where
  server := same "server" (by decide) ▸ areGiven.server
  database := same "database" (by decide) ▸ areGiven.database
  auth := same "auth" (by decide) ▸ areGiven.auth
  notifications := same "notifications" (by decide) ▸ areGiven.notifications
  photos := same "photos" (by decide) ▸ areGiven.photos
  matching := same "matching" (by decide) ▸ areGiven.matching
  logging := same "logging" (by decide) ▸ areGiven.logging

end Settings

namespace Setting.Table

def at? (root : Table) (name key : String) : Option Setting :=
  (root.lookup name).bind (·.entries.lookup key)

def HasTables (root : Table) : Prop :=
  ∀ name ∈ Settings.sectionNames, ∀ v ∈ root.lookup name, ∃ t, v = .table t

end Setting.Table

/-- Where sections are tables, settings are read entry by entry. -/
theorem Settings.ofTree_eq_ok_iff {root : Setting.Table} (tables : root.HasTables) {s : Settings} :
    ofTree (.table root) = .ok s ↔ s.AreGiven root.at? := by
  have server := Server.reads.needed_iff (a := s.server) "ServerSettings" nofun
    (tables "server" (by decide))
  have database := Database.reads.needed_iff (a := s.database) "DatabaseSettings" nofun
    (tables "database" (by decide))
  have auth := Auth.reads.needed_iff (a := s.auth) "AuthSettings" nofun (tables "auth" (by decide))
  have notifications := Notifications.reads.needed_iff (a := s.notifications)
    "NotificationSettings" nofun (tables "notifications" (by decide))
  have photos := Photos.reads.needed_iff (a := s.photos) "PhotoSettings" nofun
    (tables "photos" (by decide))
  have matching := Matching.reads.filled_iff (a := s.matching) "MatchingSettings" rfl
    (tables "matching" (by decide))
  have logging := Logging.reads.filled_iff (a := s.logging) "LoggingSettings" rfl
    (tables "logging" (by decide))
  rw [ofTree, reads.decode_table_iff]
  refine ⟨fun read => ?_, fun given part => ?_⟩
  · exact ⟨server.mp (read .server), database.mp (read .database), auth.mp (read .auth),
      notifications.mp (read .notifications), photos.mp (read .photos),
      matching.mp (read .matching), logging.mp (read .logging)⟩
  · cases part with
    | server => exact server.mpr given.server
    | database => exact database.mpr given.database
    | auth => exact auth.mpr given.auth
    | notifications => exact notifications.mpr given.notifications
    | photos => exact photos.mpr given.photos
    | matching => exact matching.mpr given.matching
    | logging => exact logging.mpr given.logging

end Matchmaking
