import Matchmaking.Proofs.Settings.Precedence
/-! Texts that settings get from the environment. The value of a variable is taken for a truth
value or a number where it can be, and a setting that is a text gets that value written out again:
it is the text of the variable only where the two are the same. -/
namespace Matchmaking

namespace Decimal

variable {s : List Char}

theorem isSome_readUnsigned?_of_digits (negative : Bool) (nonempty : s ≠ [])
    (digits : ∀ c ∈ s, c.isDigit) : (readUnsigned? negative s).isSome := by
  have whole : s.takeWhile Char.isDigit = s := List.takeWhile_eq_self_iff.mpr digits
  have rest : s.dropWhile Char.isDigit = [] := List.dropWhile_eq_nil_iff.mpr digits
  unfold readUnsigned?
  dsimp only
  split
  · rfl
  split
  · rfl
  · simp [whole, rest, nonempty, readExponent?]

theorem isSome_readFloat?_of_readInt? {i : Int} (read : readInt? s = some i) :
    (readFloat? s).isSome := by
  cases digits : readDigits? (splitSign s).2 with
  | none => simp [readInt?, digits] at read
  | some n =>
    rw [readDigits?, Option.ite_none_right_eq_some] at digits
    obtain ⟨⟨nonempty, all⟩, -⟩ := digits
    exact isSome_readUnsigned?_of_digits _ nonempty (List.all_eq_true.mp all)

end Decimal

namespace Setting

def NoFlag (v : String) : Prop := Text.lowerCase v ≠ "true" ∧ Text.lowerCase v ≠ "false"

/-- What is left of a text that is taken for a truth value, a whole number or a double where it can
be, and is then written out again. -/
inductive ReadBack (v : String) : String → Prop
  | yes (lowered : Text.lowerCase v = "true") : ReadBack v "true"
  | no (lowered : Text.lowerCase v = "false") : ReadBack v "false"
  | int {i : Int} (noFlag : NoFlag v) (read : Decimal.readInt? v.toList = some i)
      (fits : fitsInt i) : ReadBack v (toString i)
  | float {x : Float} (noFlag : NoFlag v)
      (noInt : ∀ i, Decimal.readInt? v.toList = some i → ¬fitsInt i)
      (read : Decimal.readFloat? v.toList = some x) : ReadBack v (Decimal.text x)
  | text (noFlag : NoFlag v) (noInt : Decimal.readInt? v.toList = none)
      (noFloat : Decimal.readFloat? v.toList = none) : ReadBack v v

/-- The value of a variable can be a text, and it is what is left of the variable's text. -/
theorem exists_readBack (v : String) : ∃ w, string (ofVariable v) = .ok w ∧ ReadBack v w := by
  unfold ofVariable
  dsimp only
  by_cases yes : Text.lowerCase v = "true"
  · rw [if_pos yes]
    exact ⟨"true", rfl, .yes yes⟩
  by_cases no : Text.lowerCase v = "false"
  · rw [if_neg yes, if_pos no]
    exact ⟨"false", rfl, .no no⟩
  rw [if_neg yes, if_neg no]
  cases int : Decimal.readInt? v.toList with
  | some i =>
    by_cases fits : fitsInt i
    · simp only [fits, if_true]
      exact ⟨toString i, rfl, .int ⟨yes, no⟩ int fits⟩
    · obtain ⟨x, float⟩ := Option.isSome_iff_exists.mp (Decimal.isSome_readFloat?_of_readInt? int)
      simp only [fits, float, Option.getD_some, Bool.false_eq_true, if_false]
      refine ⟨Decimal.text x, rfl, .float ⟨yes, no⟩ (fun j read => ?_) float⟩
      rwa [← Option.some.inj (int.symm.trans read)]
  | none =>
    cases float : Decimal.readFloat? v.toList with
    | some x => exact ⟨Decimal.text x, rfl, .float ⟨yes, no⟩ (by simp [int]) float⟩
    | none => exact ⟨v, rfl, .text ⟨yes, no⟩ int float⟩

end Setting

namespace Settings

open Setting

section

variable {given : String → Option Setting} {v : Setting} {w : String}

theorem Server.IsRead.update_host {s : Server} (read : s.IsRead given) (text : string v = .ok w) :
    IsRead (Function.update given "host" (some v)) { s with host := w } where
  host := ⟨v, by simp, text⟩
  port := by simpa using read.port
  workers := by simpa using read.workers

theorem Database.IsRead.update_url {s : Database} (read : s.IsRead given)
    (text : string v = .ok w) :
    IsRead (Function.update given "url" (some v)) { s with url := w } where
  url := ⟨v, by simp, text⟩
  maxConnections := by simpa using read.maxConnections
  minConnections := by simpa using read.minConnections
  acquireTimeoutSecs := by simpa using read.acquireTimeoutSecs
  idleTimeoutSecs := by simpa using read.idleTimeoutSecs

theorem Auth.isRead_update (text : string v = .ok w) :
    Auth.IsRead (Function.update given "jwt_secret" (some v)) ⟨w⟩ :=
  ⟨⟨v, by simp, text⟩⟩

theorem Notifications.IsRead.update_endpoint {s : Notifications} (read : s.IsRead given)
    (text : string v = .ok w) :
    IsRead (Function.update given "endpoint" (some v)) { s with endpoint := w } where
  endpoint := ⟨v, by simp, text⟩
  timeoutSecs := by simpa using read.timeoutSecs

theorem Photos.isRead_update (text : string v = .ok w) :
    Photos.IsRead (Function.update given "base_url" (some v)) ⟨w⟩ :=
  ⟨⟨v, by simp, text⟩⟩

theorem Logging.IsRead.update_level {s : Logging} (read : s.IsRead given)
    (text : string v = .ok w) :
    IsRead (Function.update given "level" (some v)) { s with level := w } where
  level := by simpa using Filled.given text
  format := by simpa using read.format

theorem Logging.IsRead.update_format {s : Logging} (read : s.IsRead given)
    (text : string v = .ok w) :
    IsRead (Function.update given "format" (some v)) { s with format := w } where
  level := by simpa using read.level
  format := by simpa using Filled.given text

end

inductive TextSetting
  | host
  | databaseUrl
  | jwtSecret
  | endpoint
  | photoBase
  | level
  | format
  deriving DecidableEq

theorem isTable_or_isList_of_decode {α : Type} {fields : Section α} {title : String} {u : Setting}
    {a : α} (decoded : fields.decode title u = .ok a) :
    (∃ t, u = .table t) ∨ ∃ items, u = .list items := by
  cases u with
  | table t => exact .inl ⟨t, rfl⟩
  | list items => exact .inr ⟨items, rfl⟩
  | _ => cases decoded

theorem Part.isTable_or_isList {part : Part} {s : Settings} {u : Setting}
    (read : part.IsRead (some u) s) : (∃ t, u = .table t) ∨ ∃ items, u = .list items := by
  cases part with
  | matching | logging =>
    cases read with
    | given decoded => exact isTable_or_isList_of_decode decoded
  | _ =>
    obtain ⟨_, ⟨⟩, decoded⟩ := read
    exact isTable_or_isList_of_decode decoded

namespace TextSetting

def part : TextSetting → Part
  | host => .server
  | databaseUrl => .database
  | jwtSecret => .auth
  | endpoint => .notifications
  | photoBase => .photos
  | level | format => .logging

def key : TextSetting → String
  | host => "host"
  | databaseUrl => "url"
  | jwtSecret => "jwt_secret"
  | endpoint => "endpoint"
  | photoBase => "base_url"
  | level => "level"
  | format => "format"

def put (s : Settings) (w : String) : TextSetting → Settings
  | host => { s with server := { s.server with host := w } }
  | databaseUrl => { s with database := { s.database with url := w } }
  | jwtSecret => { s with auth := ⟨w⟩ }
  | endpoint => { s with notifications := { s.notifications with endpoint := w } }
  | photoBase => { s with photos := ⟨w⟩ }
  | level => { s with logging := { s.logging with level := w } }
  | format => { s with logging := { s.logging with format := w } }

/-- The settings with nothing but that text in its section. A server needs a port besides. -/
def alone (s : Settings) (w : String) : TextSetting → Decoded Settings
  | host => .error (.missing "port")
  | databaseUrl => .ok { s with database := ⟨w, none, none, none, none⟩ }
  | jwtSecret => .ok { s with auth := ⟨w⟩ }
  | endpoint => .ok { s with notifications := ⟨w, 5⟩ }
  | photoBase => .ok { s with photos := ⟨w⟩ }
  | level => .ok { s with logging := { level := w } }
  | format => .ok { s with logging := { format := w } }

theorem names_of_lowerCase (k : TextSetting) {name : String}
    (named : Text.lowerCase name = variableName k.part.name k.key) :
    Names name k.part.name k.key where
  lowered := named
  partWord := by cases k <;> exact ⟨by decide, by decide, by decide⟩
  keyWord := by cases k <;> exact ⟨by decide, by decide, by decide⟩
  apart := by cases k <;> decide

theorem ne_databaseVariable (k : TextSetting) {name : String}
    (named : Text.lowerCase name = variableName k.part.name k.key) : name ≠ databaseVariable := by
  rintro rfl
  cases k <;> exact absurd named (by decide +kernel)

variable {k : TextSetting} {base : Settings} {entry : Option Setting} {v : Setting} {w : String}

theorem isRead_put_of_ne {part : Part} (other : part ≠ k.part) :
    part.IsRead entry (k.put base w) ↔ part.IsRead entry base := by
  cases k <;> cases part <;> first | rfl | exact absurd rfl other

def renewed (k : TextSetting) (entry : Option Setting) (v : Setting) : Setting :=
  .table ((entry.getD .null).entries.set k.key v)

theorem lookup_renewed (k : TextSetting) (entry : Option Setting) (v : Setting) :
    (((entry.getD .null).entries.set k.key v).lookup ·) =
      Function.update (fun key => entry.bind (·.entries.lookup key)) k.key (some v) := by
  funext key
  rw [lookup_set, Function.update_apply]
  cases entry <;> simp [eq_comm, Setting.entries]

theorem isRead_put (isTable : ∀ u ∈ entry, ∃ t, u = .table t) (read : k.part.IsRead entry base)
    (text : string v = .ok w) : k.part.IsRead (some (k.renewed entry v)) (k.put base w) := by
  have entries := lookup_renewed k entry v
  cases k with
  | host =>
    have before := (Server.reads.needed_iff "ServerSettings" nofun isTable).mp read
    refine ⟨_, rfl, Server.reads.decode_table_iff.mpr ?_⟩
    rw [entries]
    exact before.update_host text
  | databaseUrl =>
    have before := (Database.reads.needed_iff "DatabaseSettings" nofun isTable).mp read
    refine ⟨_, rfl, Database.reads.decode_table_iff.mpr ?_⟩
    rw [entries]
    exact before.update_url text
  | jwtSecret =>
    refine ⟨_, rfl, Auth.reads.decode_table_iff.mpr ?_⟩
    rw [entries]
    exact Auth.isRead_update text
  | endpoint =>
    have before := (Notifications.reads.needed_iff "NotificationSettings" nofun isTable).mp read
    refine ⟨_, rfl, Notifications.reads.decode_table_iff.mpr ?_⟩
    rw [entries]
    exact before.update_endpoint text
  | photoBase =>
    refine ⟨_, rfl, Photos.reads.decode_table_iff.mpr ?_⟩
    rw [entries]
    exact Photos.isRead_update text
  | level =>
    have before := (Logging.reads.filled_iff "LoggingSettings" rfl isTable).mp read
    refine .given (Logging.reads.decode_table_iff.mpr ?_)
    rw [entries]
    exact before.update_level text
  | format =>
    have before := (Logging.reads.filled_iff "LoggingSettings" rfl isTable).mp read
    refine .given (Logging.reads.decode_table_iff.mpr ?_)
    rw [entries]
    exact before.update_format text

theorem isRead_alone {s : Settings} (alone : k.alone base w = .ok s) (text : string v = .ok w) :
    k.part.IsRead (some (.table [(k.key, v)])) s := by
  cases k with
  | host => cases alone
  | databaseUrl =>
    obtain rfl := Except.ok.inj alone
    exact ⟨_, rfl, Database.reads.decode_table_iff.mpr
      ⟨⟨v, rfl, text⟩, .absent, .absent, .absent, .absent⟩⟩
  | jwtSecret =>
    obtain rfl := Except.ok.inj alone
    exact ⟨_, rfl, Auth.reads.decode_table_iff.mpr ⟨⟨v, rfl, text⟩⟩⟩
  | endpoint =>
    obtain rfl := Except.ok.inj alone
    exact ⟨_, rfl, Notifications.reads.decode_table_iff.mpr ⟨⟨v, rfl, text⟩, .absent⟩⟩
  | photoBase =>
    obtain rfl := Except.ok.inj alone
    exact ⟨_, rfl, Photos.reads.decode_table_iff.mpr ⟨⟨v, rfl, text⟩⟩⟩
  | level =>
    obtain rfl := Except.ok.inj alone
    exact .given (Logging.reads.decode_table_iff.mpr ⟨.given text, .absent⟩)
  | format =>
    obtain rfl := Except.ok.inj alone
    exact .given (Logging.reads.decode_table_iff.mpr ⟨.absent, .given text⟩)

theorem isRead_alone_of_ne {s : Settings} (alone : k.alone base w = .ok s) {part : Part}
    (other : part ≠ k.part) : part.IsRead entry s ↔ part.IsRead entry base := by
  cases k <;> cases alone <;> cases part <;> first | rfl | exact absurd rfl other

theorem decode_host_alone (text : string v = .ok w) :
    Server.fields.decode "ServerSettings" (.table [("host", v)]) = .error (.missing "port") := by
  cases v with
  | null | list | table => cases text
  | flag | int | float | text => rfl

end TextSetting

theorem ofTree_eq_error {root : Table} {u : Setting} {field : String}
    (entry : root.lookup "server" = some u)
    (missing : Server.fields.decode "ServerSettings" u = .error (.missing field)) :
    ofTree (.table root) = .error (.missing field) := by
  have first : Settings.fields.fields =
      ⟨"server", fun v => (Server.fields.decode "ServerSettings" v).map fun _ => (), .refused⟩ ::
        Settings.fields.fields.tail := rfl
  have checked : Section.check Settings.fields.fields root = .error (.missing field) := by
    rw [first, Section.check_cons_of_some entry]
    dsimp only
    rw [missing]
    rfl
  change Section.check Settings.fields.fields root >>= (fun _ => Settings.fields.build root) = _
  rw [checked]
  rfl

theorem path_of_ofFile {text : List Char} {as : List Assignment} (read : ofFile text = .ok as) :
    ∀ a ∈ as, ∃ p rest, a.path = .key p :: rest := by
  unfold ofFile at read
  dsimp only at read
  split at read
  · split at read
    · obtain rfl := Except.ok.inj read
      intro a mem
      obtain ⟨e, -, rfl⟩ := List.mem_map.mp mem
      exact Path.exists_ofKey e.1
    · cases read
  · cases read

theorem path_of_mapM_ofFile {files : List (List Char)} {as : List (List Assignment)}
    (read : files.mapM ofFile = .ok as) : ∀ a ∈ as.flatten, ∃ p rest, a.path = .key p :: rest := by
  induction files generalizing as with
  | nil =>
    obtain rfl := Except.ok.inj read
    exact nofun
  | cons text files ih =>
    rw [List.mapM_cons] at read
    cases first : ofFile text with
    | error e => simp [first, bind, Except.bind] at read
    | ok a =>
      cases others : files.mapM ofFile with
      | error e => simp [first, others, bind, Except.bind] at read
      | ok rest =>
        simp only [first, others, bind, Except.bind, pure, Except.pure, Except.ok.injEq] at read
        subst read
        rw [List.flatten_cons]
        exact List.forall_mem_append.mpr ⟨path_of_ofFile first, ih others⟩

theorem exists_table_of_paths {as : List Assignment}
    (paths : ∀ a ∈ as, ∃ p rest, a.path = .key p :: rest) (root : Table) :
    ∃ root' : Table, as.foldl (fun tree a => assign a.value a.path tree) (.table root) =
      .table root' := by
  induction as generalizing root with
  | nil => exact ⟨root, rfl⟩
  | cons a as ih =>
    obtain ⟨⟨p, rest, path⟩, others⟩ := List.forall_mem_cons.mp paths
    obtain ⟨w, made⟩ := exists_assign_elsewhere p rest a.value root
    rw [List.foldl_cons, path, made]
    exact ih others _

theorem Part.name_injective {part part' : Part} (same : part.name = part'.name) : part = part' := by
  cases part <;> cases part' <;> first | rfl | exact absurd same (by decide)

theorem ofTree_set_eq_ok {root : Table} {part : Part} {u : Setting} {s : Settings}
    (here : part.IsRead (some u) s)
    (others : ∀ other ≠ part, other.IsRead (root.lookup other.name) s) :
    ofTree (.table (root.set part.name u)) = .ok s := by
  refine reads.decode_table_iff.mpr fun other => ?_
  dsimp only
  rw [lookup_set]
  by_cases same : part = other
  · subst same
    rwa [if_pos rfl]
  · rw [if_neg fun names => same (Part.name_injective names)]
    exact others other (Ne.symm same)

def TextSetting.IsListed (files : List (List Char)) (k : TextSetting) : Prop :=
  ∃ as items, files.mapM ofFile = .ok as ∧
    (ofAssignments as.flatten).entries.lookup k.part.name = some (.list items)

/-- A variable for one of the texts goes into the tree that the files make. -/
theorem exists_tree_with_variable {k : TextSetting} {files : List (List Char)} {base : Settings}
    (loads : ofSources files [] = .ok base) {name : String} (v : String)
    (named : Text.lowerCase name = variableName k.part.name k.key) :
    ∃ root : Table, (∀ part : Part, part.IsRead (root.lookup part.name) base) ∧
      (k.IsListed files ↔ ∃ items, root.lookup k.part.name = some (.list items)) ∧
      ofSources files [(name, v)] = ofTree (.table (root.set k.part.name
        (k.renewed (root.lookup k.part.name) (ofVariable v)))) := by
  cases read : files.mapM ofFile with
  | error e => simp [ofSources, read, bind, Except.bind] at loads
  | ok as =>
    have sources (env : List Variable) : ofSources files env =
        ofTree (ofAssignments (as.flatten ++ ofEnvironment env ++ ofDatabaseVariable env)) := by
      rw [ofSources, read]
      rfl
    obtain ⟨root, made⟩ := exists_table_of_paths (path_of_mapM_ofFile read) []
    have before : ofTree (.table root) = .ok base := by
      rw [← loads, sources, ← made]
      simp [ofAssignments, ofEnvironment, ofDatabaseVariable]
    have entries : (ofAssignments as.flatten).entries = root := congrArg Setting.entries made
    refine ⟨root, reads.decode_table_iff.mp before, ?_, ?_⟩
    · simp only [TextSetting.IsListed, read, Except.ok.injEq, exists_and_left, exists_eq_left',
        entries]
    · have names : Names name k.part.name k.key := k.names_of_lowerCase named
      have fromEnv : ofEnvironment [(name, v)] =
          [⟨[.key k.part.name, .key k.key], ofVariable v⟩] := by
        have leads : ofNamed? (name, v) = _ := ofNamed?_of_names names
        simp [ofEnvironment, leads]
      have fromDatabase : ofDatabaseVariable [(name, v)] = [] := by
        have other : (databaseVariable == name) = false :=
          beq_eq_false_iff_ne.mpr (k.ne_databaseVariable named).symm
        simp [ofDatabaseVariable, List.lookup_cons, other]
      have assigned := assign_entry (not_isTable_ofVariable v) k.part.name k.key root
      rw [names.lowerCase_words.1, names.lowerCase_words.2] at assigned
      rw [sources, fromEnv, fromDatabase, List.append_nil, ofAssignments, List.foldl_append, made,
        List.foldl_cons, List.foldl_nil, assigned]
      rfl

/-- While the files give settings by themselves, a variable for one of the texts gives it what is
left of the variable's text, and nothing else changes. Only where the files give the section of the
text as a list do its other items get lost, and a server cannot do without them. -/
theorem texts_are_read_back (k : TextSetting) {files : List (List Char)} {base : Settings}
    (loads : ofSources files [] = .ok base) {name : String} (v : String)
    (named : Text.lowerCase name = variableName k.part.name k.key) :
    ∃ w, ReadBack v w ∧
      (¬k.IsListed files → ofSources files [(name, v)] = .ok (k.put base w)) ∧
      (k.IsListed files → ofSources files [(name, v)] = k.alone base w) := by
  obtain ⟨w, text, readBack⟩ := exists_readBack v
  obtain ⟨root, sections, listed_iff, made⟩ := exists_tree_with_variable loads v named
  rw [listed_iff, made]
  refine ⟨w, readBack, fun unlisted => ?_, fun listed => ?_⟩
  · have isTable : ∀ u ∈ root.lookup k.part.name, ∃ t, u = .table t := by
      intro u found
      have here := sections k.part
      rw [found] at here
      rcases Part.isTable_or_isList here with table | ⟨items, rfl⟩
      · exact table
      · exact absurd ⟨items, found⟩ unlisted
    exact ofTree_set_eq_ok (TextSetting.isRead_put isTable (sections k.part) text)
      fun other apart => (TextSetting.isRead_put_of_ne apart).mpr (sections other)
  · obtain ⟨items, listed⟩ := listed
    rw [listed]
    cases alone : k.alone base w with
    | ok s =>
      exact ofTree_set_eq_ok (TextSetting.isRead_alone alone text)
        fun other apart => (TextSetting.isRead_alone_of_ne alone apart).mpr (sections other)
    | error e =>
      cases k with
      | host =>
        obtain rfl := Except.error.inj alone
        exact ofTree_eq_error (Table.lookup_set_self _ _ _) (TextSetting.decode_host_alone text)
      | _ => cases alone

/-- A secret that begins with a zero is taken for a number. -/
theorem texts_are_read_back_secret :
    let base : Settings :=
      { server := ⟨"h", 80, none⟩, database := ⟨"u", none, none, none, none⟩, auth := ⟨"s"⟩
        notifications := ⟨"e", 5⟩, photos := ⟨"p"⟩ }
    ofSources [specimenFile] [] = .ok base ∧ ReadBack "0123" "123" ∧
      ofSources [specimenFile] [("SPARK__AUTH__JWT_SECRET", "0123")] =
        .ok { base with auth := ⟨"123"⟩ } := by
  intro base
  have loads : ofSources [specimenFile] [] = .ok base := by decide +kernel
  have named : Text.lowerCase "SPARK__AUTH__JWT_SECRET" = "spark__auth__jwt_secret" := by
    decide +kernel
  have unlisted : ¬TextSetting.IsListed [specimenFile] .jwtSecret := by
    rintro ⟨as, items, read, listed⟩
    have isTable : (([specimenFile].mapM ofFile).map fun as =>
        ((ofAssignments as.flatten).entries.lookup "auth").any Setting.isTable) = .ok true := by
      decide +kernel
    have listed : (ofAssignments as.flatten).entries.lookup "auth" = some (.list items) := listed
    rw [read, Except.map, listed] at isTable
    cases isTable
  obtain ⟨w, readBack, made, -⟩ := texts_are_read_back .jwtSecret loads "0123" named
  have kept : ofSources [specimenFile] [("SPARK__AUTH__JWT_SECRET", "0123")] =
      .ok { base with auth := ⟨"123"⟩ } := by decide +kernel
  have same : w = "123" :=
    congrArg (·.auth.jwtSecret) (Except.ok.inj ((made unlisted).symm.trans kept))
  exact ⟨loads, same ▸ readBack, kept⟩

/-- Files that load and a secret that is not kept. -/
theorem secret_is_not_kept :
    (loadFrom (some specimenFile) []).isOk ∧
      (loadFrom (some specimenFile) [("SPARK__AUTH__JWT_SECRET", "0123")]).map (·.auth.jwtSecret) =
        .ok "123" := by
  decide +kernel

end Settings
end Matchmaking
