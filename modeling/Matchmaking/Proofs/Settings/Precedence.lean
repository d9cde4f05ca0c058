import Matchmaking.Proofs.Settings.Layering
import Matchmaking.Proofs.Settings.Naming
/-! Which source a setting comes from. Files give the entries of sections as members of objects,
variables of the environment give one entry each, and the variable that names the database gives
its address. Where no source says two things of one entry, an entry of the tree is that of the
source that comes last among those that give it. -/
namespace Matchmaking

theorem findSome?_reverse_of_once {α β : Type} {p : α → Bool} {g : α → Option β} {l : List α}
    (once : l.Pairwise fun a b => ¬(p a ∧ p b)) :
    l.reverse.findSome? (fun a => if p a then g a else none) = (l.find? p).bind g := by
  induction l with
  | nil => rfl
  | cons a l ih =>
    obtain ⟨first, once⟩ := List.pairwise_cons.mp once
    rw [List.reverse_cons, List.findSome?_append, ih once, List.findSome?_singleton,
      List.find?_cons]
    cases passes : p a with
    | true =>
      have others : l.find? p = none :=
        List.find?_eq_none.mpr fun b mem passes' => first b mem ⟨passes, passes'⟩
      simp [others]
    | false => simp

theorem findSome?_congr {α β : Type} {f g : α → Option β} {l : List α}
    (same : ∀ a ∈ l, f a = g a) : l.findSome? f = l.findSome? g := by
  rw [← List.head?_filterMap, List.filterMap_congr same, List.head?_filterMap]

namespace Json

def member? (name : String) : Json → Option Json
  | .object members => (members.find? fun m => m.1.map Text.lowerCase == some name).map Prod.snd
  | _ => none

def KeysApart (members : List (Option String × Json)) : Prop :=
  (members.map fun m => m.1.map Text.lowerCase).Nodup

instance (members : List (Option String × Json)) : Decidable (KeysApart members) :=
  inferInstanceAs (Decidable (List.Nodup _))

def isScalar : Json → Bool
  | .bool _ | .number _ | .text _ => true
  | _ => false

def isFlat : Json → Bool
  | .object members => KeysApart members && members.all (·.2.isScalar)
  | _ => false

theorem isFlat_iff {v : Json} :
    v.isFlat ↔
      ∃ members, v = .object members ∧ KeysApart members ∧ ∀ m ∈ members, m.2.isScalar := by
  cases v <;> simp [isFlat]

theorem KeysApart.once {members : List (Option String × Json)} (apart : KeysApart members)
    (name : String) :
    members.Pairwise fun m m' => ¬((m.1.map Text.lowerCase == some name) ∧
      (m'.1.map Text.lowerCase == some name)) := by
  have pairs := List.pairwise_map.mp apart
  refine pairs.imp fun differ both => ?_
  simp only [beq_iff_eq] at both
  exact differ (both.1.trans both.2.symm)

theorem named_of_membersDenoteWithin {depth : Nat} {members : List (Option String × Json)}
    (denote : membersDenoteWithin depth members) :
    ∀ m ∈ members, m.1.isSome ∧ m.2.denotesWithin depth := by
  induction members with
  | nil => exact nofun
  | cons m members ih =>
    obtain ⟨key, v⟩ := m
    simp only [membersDenoteWithin, Bool.and_eq_true] at denote
    exact List.forall_mem_cons.mpr ⟨denote.1, ih denote.2⟩

end Json

namespace Setting

open Settings (sectionNames)
open Json (KeysApart)

def withoutMark : List Char → List Char
  | '\ufeff' :: rest => rest
  | s => s

theorem ofFile_eq (text : List Char) :
    ofFile text = match Json.read? (withoutMark text) with
      | some (.object members) =>
        if (Json.object members).denotesWithin maxDepth then
          .ok ((ofMembers members).map fun e => ⟨.ofKey e.1, e.2⟩)
        else .error .fileParse
      | _ => .error .fileParse := rfl

variable {members : List (Option String × Json)} {name key : String}

theorem ofMembers_of_apart (apart : KeysApart members) :
    ofMembers members = members.map fun m => (m.1.getD "", ofJson m.2) := by
  induction members with
  | nil => rfl
  | cons m members ih =>
    obtain ⟨key, v⟩ := m
    obtain ⟨new, apart⟩ := List.nodup_cons.mp apart
    have single : isRepeated key members = false := by
      rw [isRepeated, List.any_eq_false]
      intro m mem same
      rw [← beq_iff_eq.mp same] at new
      exact new (List.mem_map.mpr ⟨m, mem, rfl⟩)
    simp [ofMembers, single, ih apart]

theorem lastOf?_ofMembers (key : String) (apart : KeysApart members)
    (named : ∀ m ∈ members, m.1.isSome) :
    lastOf? key (ofMembers members) = ((Json.object members).member? key).map ofJson := by
  have tells : ∀ m ∈ members.reverse,
      (if Text.lowerCase (m.1.getD "") = key then some (ofJson m.2) else none) =
        if m.1.map Text.lowerCase == some key then some (ofJson m.2) else none := by
    intro m mem
    obtain ⟨k, isKey⟩ := Option.isSome_iff_exists.mp (named m (List.mem_reverse.mp mem))
    simp [isKey]
  rw [lastOf?, ofMembers_of_apart apart, ← List.map_reverse, List.findSome?_map]
  refine (findSome?_congr tells).trans ?_
  rw [findSome?_reverse_of_once (apart.once key), Json.member?, Option.map_map]
  cases members.find? _ <;> rfl

/-! ### Files -/

def ofMember (m : Option String × Json) : Assignment := ⟨.ofKey (m.1.getD ""), ofJson m.2⟩

/-- A member whose key leads into a section bears the section's name, and is a flat object. -/
def isPlainMember (m : Option String × Json) : Bool :=
  match Path.ofKey (m.1.getD "") with
  | .key p :: rest =>
    !sectionNames.contains (Text.lowerCase p) || rest.isEmpty && m.2.isFlat
  | _ => true

theorem flat_of_isPlainMember {m : Option String × Json} (plain : isPlainMember m) {p : String}
    {rest : Path} (path : Path.ofKey (m.1.getD "") = .key p :: rest)
    (known : Text.lowerCase p ∈ sectionNames) : rest = [] ∧ m.2.isFlat := by
  simpa [isPlainMember, path, known] using plain

theorem not_isTable_of_isScalar {v : Json} (scalar : v.isScalar) : ¬(ofJson v).isTable := by
  cases v with
  | bool | text => exact Bool.false_ne_true
  | number n =>
    simp only [ofJson, ofNumeral]
    split
    · split <;> exact Bool.false_ne_true
    · exact Bool.false_ne_true
  | null | unpaired | array | object | broken => cases scalar

theorem isPlain_ofMember {m : Option String × Json} (plain : isPlainMember m) :
    (ofMember m).IsPlain := by
  obtain ⟨p, rest, path⟩ := Path.exists_ofKey (m.1.getD "")
  rw [ofMember, path]
  by_cases known : Text.lowerCase p ∈ sectionNames
  · obtain ⟨rfl, flat⟩ := flat_of_isPlainMember plain path known
    obtain ⟨entries, object, apart, scalars⟩ := Json.isFlat_iff.mp flat
    rw [object, ofJson, ofMembers_of_apart apart]
    refine .part fun e mem => ?_
    obtain ⟨m, among, rfl⟩ := List.mem_map.mp mem
    exact not_isTable_of_isScalar (scalars m among)
  · exact .other known

theorem ofKey_of_known (known : Text.lowerCase key ∈ sectionNames) :
    Path.ofKey key = [.key key] := by
  have letters : ∀ name ∈ sectionNames,
      name.toList.all fun c => Path.isNameChar c && c != 'k' := by
    decide +kernel
  refine Path.ofKey_of_word fun c mem => ?_
  have among : Text.lowerChar c ∈ (Text.lowerCase key).toList := by
    rw [Text.lowerCase, String.toList_ofList]
    exact List.mem_map_of_mem mem
  have letter := List.all_eq_true.mp (letters _ known) _ among
  rw [Bool.and_eq_true, bne_iff_ne] at letter
  exact Path.isNameChar_of_lowerChar letter.1 letter.2

theorem tells?_ofMember_of_ne {m : Option String × Json} (plain : isPlainMember m)
    (known : name ∈ sectionNames) (other : Text.lowerCase (m.1.getD "") ≠ name) (key : String) :
    (ofMember m).tells? name key = none := by
  obtain ⟨p, rest, path⟩ := Path.exists_ofKey (m.1.getD "")
  have apart : Text.lowerCase p ≠ name := by
    rintro rfl
    obtain ⟨rfl, -⟩ := flat_of_isPlainMember plain path known
    exact other (by rw [Path.eq_of_ofKey path])
  simp only [ofMember, Assignment.tells?, path]
  split <;> simp_all

theorem tells?_ofMember {m : Option String × Json} (plain : isPlainMember m) (named : m.1.isSome)
    {depth : Nat} (denotes : m.2.denotesWithin depth) (known : name ∈ sectionNames) (key : String) :
    (ofMember m).tells? name key =
      if m.1.map Text.lowerCase == some name then (m.2.member? key).map ofJson else none := by
  obtain ⟨k, isKey⟩ := Option.isSome_iff_exists.mp named
  by_cases same : Text.lowerCase k = name
  · subst same
    have path := ofKey_of_known known
    have leads : Path.ofKey (m.1.getD "") = [.key k] := by rwa [isKey]
    obtain ⟨-, flat⟩ := flat_of_isPlainMember plain leads known
    obtain ⟨entries, object, apart, -⟩ := Json.isFlat_iff.mp flat
    have entriesNamed : ∀ e ∈ entries, e.1.isSome := by
      rw [object, Json.denotesWithin, Bool.and_eq_true] at denotes
      exact fun e mem => (Json.named_of_membersDenoteWithin denotes.2 e mem).1
    have tells := lastOf?_ofMembers key apart entriesNamed
    rw [object]
    simpa [ofMember, Assignment.tells?, isKey, path, object, ofJson, Setting.entries] using tells
  · rw [tells?_ofMember_of_ne plain known (by simpa [isKey] using same)]
    simp [isKey, same]

/-- The text of the file is an object that tells of sections by plain members with keys apart. -/
def isPlainFile (text : List Char) : Bool :=
  match Json.read? (withoutMark text) with
  | some (.object members) =>
    (Json.object members).denotesWithin maxDepth && KeysApart members && members.all isPlainMember
  | _ => false

theorem exists_of_isPlainFile {text : List Char} (plain : isPlainFile text) :
    ∃ members, Json.read? (withoutMark text) = some (.object members) ∧
      (Json.object members).denotesWithin maxDepth ∧ KeysApart members ∧
        ∀ m ∈ members, isPlainMember m := by
  unfold isPlainFile at plain
  split at plain
  · next members read =>
    simp only [Bool.and_eq_true, decide_eq_true_eq, List.all_eq_true] at plain
    exact ⟨members, read, plain.1.1, plain.1.2, plain.2⟩
  · cases plain

def fileGives? (text : List Char) (name key : String) : Option Setting := do
  let file ← Json.read? (withoutMark text)
  let part ← file.member? name
  (part.member? key).map ofJson

theorem exists_ofFile {text : List Char} (plain : isPlainFile text) :
    ∃ as, ofFile text = .ok as ∧ (∀ a ∈ as, a.IsPlain) ∧
      ∀ name ∈ sectionNames, ∀ key,
        as.reverse.findSome? (·.tells? name key) = fileGives? text name key := by
  obtain ⟨members, read, denotes, apart, plain⟩ := exists_of_isPlainFile plain
  have denote : Json.membersDenoteWithin (maxDepth - 1) members := by
    rw [Json.denotesWithin, Bool.and_eq_true] at denotes
    exact denotes.2
  have named := Json.named_of_membersDenoteWithin denote
  refine ⟨members.map ofMember, ?_, ?_, fun name known key => ?_⟩
  · simp only [ofFile_eq, read, denotes, if_true, ofMembers_of_apart apart, List.map_map]
    rfl
  · intro a mem
    obtain ⟨m, among, rfl⟩ := List.mem_map.mp mem
    exact isPlain_ofMember (plain m among)
  · have tells : ∀ m ∈ members.reverse, (ofMember m).tells? name key =
        if m.1.map Text.lowerCase == some name then (m.2.member? key).map ofJson else none := by
      intro m mem
      have mem := List.mem_reverse.mp mem
      exact tells?_ofMember (plain m mem) (named m mem).1 (named m mem).2 known key
    rw [← List.map_reverse, List.findSome?_map]
    refine (findSome?_congr tells).trans ?_
    rw [findSome?_reverse_of_once (apart.once name)]
    simp only [fileGives?, read, Json.member?, Option.bind_eq_bind, Option.bind_some]
    cases members.find? _ <;> rfl

/-- Plain files, one after the other: what the last one gives that gives anything counts. -/
theorem exists_mapM_ofFile {files : List (List Char)} (plain : ∀ text ∈ files, isPlainFile text) :
    ∃ as, files.mapM ofFile = .ok as ∧ (∀ a ∈ as.flatten, a.IsPlain) ∧
      ∀ name ∈ sectionNames, ∀ key,
        as.flatten.reverse.findSome? (·.tells? name key) =
          files.reverse.findSome? (fileGives? · name key) := by
  induction files with
  | nil => exact ⟨[], rfl, nofun, fun _ _ _ => rfl⟩
  | cons text files ih =>
    obtain ⟨first, others⟩ := List.forall_mem_cons.mp plain
    obtain ⟨a, read, plainFirst, tellsFirst⟩ := exists_ofFile first
    obtain ⟨as, readRest, plainRest, tellsRest⟩ := ih others
    refine ⟨a :: as, ?_, ?_, fun name known key => ?_⟩
    · rw [List.mapM_cons, read, readRest]
      rfl
    · rw [List.flatten_cons]
      exact List.forall_mem_append.mpr ⟨plainFirst, plainRest⟩
    · rw [List.flatten_cons, List.reverse_append, List.findSome?_append, tellsRest name known,
        tellsFirst name known, List.reverse_cons, List.findSome?_append, List.findSome?_singleton]

/-! ### The environment -/

def isOfSettings (v : Variable) : Bool := variableStart.isPrefixOf (Text.lower v.1.toList)

/-- Every variable whose name starts as names of settings do is named for an entry of a section,
and no two of them for the same one. -/
structure IsPlainEnvironment (env : List Variable) : Prop where
  named : ∀ v ∈ env, isOfSettings v → ∃ part key, Names v.1 part key
  apart : env.Pairwise fun v w => isOfSettings v → Text.lowerCase v.1 ≠ Text.lowerCase w.1

def environmentGives? (env : List Variable) (name key : String) : Option Setting :=
  (env.find? fun v => Text.lowerCase v.1 == variableName name key).map (ofVariable ·.2)

theorem isOfSettings_of_lowerCase {v : Variable}
    (lowered : Text.lowerCase v.1 = variableName name key) : isOfSettings v := by
  have lists := congrArg String.toList lowered
  rw [Text.lowerCase, String.toList_ofList, toList_variableName] at lists
  simp [isOfSettings, lists]

theorem not_isTable_ofVariable (s : String) : ¬(ofVariable s).isTable := by
  unfold ofVariable
  dsimp only
  split
  · exact Bool.false_ne_true
  split
  · exact Bool.false_ne_true
  split
  · split <;> exact Bool.false_ne_true
  · cases Decimal.readFloat? s.toList <;> exact Bool.false_ne_true

theorem unbroken_of_known (known : name ∈ sectionNames) : Unbroken (name.toList ++ ['_']) := by
  have all : ∀ name ∈ sectionNames, (name.toList ++ ['_']).IsChain fun c d =>
      ¬(c = '_' ∧ d = '_') := by decide +kernel
  exact all name known

theorem tells?_ofNamed? {v : Variable} (named : isOfSettings v → ∃ part key, Names v.1 part key)
    (known : name ∈ sectionNames) (key : String) :
    ((ofNamed? v).bind fun a => a.tells? name key) =
      if Text.lowerCase v.1 == variableName name key then some (ofVariable v.2) else none := by
  by_cases ours : isOfSettings v
  · obtain ⟨part, k, names⟩ := named ours
    have same := names.variableName_eq_iff key (unbroken_of_known known)
    simp [ofNamed?_of_names names, Assignment.tells?, names.lowerCase_words, same]
  · have silent : ofNamed? v = none := if_neg ours
    have other : Text.lowerCase v.1 ≠ variableName name key := fun lowered =>
      ours (isOfSettings_of_lowerCase lowered)
    simp [silent, other]

theorem ofEnvironment_tells {env : List Variable} (plain : IsPlainEnvironment env) :
    (∀ a ∈ ofEnvironment env, a.IsPlain) ∧
      ∀ name ∈ sectionNames, ∀ key,
        (ofEnvironment env).reverse.findSome? (·.tells? name key) =
          environmentGives? env name key := by
  refine ⟨fun a mem => ?_, fun name known key => ?_⟩
  · obtain ⟨v, among, made⟩ := List.mem_filterMap.mp mem
    by_cases ours : isOfSettings v
    · obtain ⟨part, k, names⟩ := plain.named v among ours
      cases (ofNamed?_of_names names).symm.trans made
      exact .entry (not_isTable_ofVariable v.2)
    · cases (if_neg ours : ofNamed? v = none).symm.trans made
  · have tells : ∀ v ∈ env.reverse, ((ofNamed? v).bind fun a => a.tells? name key) =
        if Text.lowerCase v.1 == variableName name key then some (ofVariable v.2) else none :=
      fun v mem => tells?_ofNamed? (plain.named v (List.mem_reverse.mp mem)) known key
    have once : env.Pairwise fun v w => ¬((Text.lowerCase v.1 == variableName name key) ∧
        (Text.lowerCase w.1 == variableName name key)) := by
      refine plain.apart.imp fun apart both => ?_
      simp only [beq_iff_eq] at both
      exact apart (isOfSettings_of_lowerCase both.1) (both.1.trans both.2.symm)
    rw [ofEnvironment, ← List.filterMap_reverse, ← List.head?_filterMap,
      List.filterMap_filterMap, List.head?_filterMap]
    refine (findSome?_congr tells).trans ?_
    rw [findSome?_reverse_of_once once, environmentGives?]
    cases env.find? _ <;> rfl

def databaseGives? (env : List Variable) (name key : String) : Option Setting :=
  if name = "database" ∧ key = "url" then (env.lookup databaseVariable).map .text else none

theorem ofDatabaseVariable_tells (env : List Variable) :
    (∀ a ∈ ofDatabaseVariable env, a.IsPlain) ∧
      ∀ name key, (ofDatabaseVariable env).reverse.findSome? (·.tells? name key) =
        databaseGives? env name key := by
  unfold ofDatabaseVariable databaseGives?
  have lowered : Text.lowerCase "database" = "database" ∧ Text.lowerCase "url" = "url" := by
    decide +kernel
  cases env.lookup databaseVariable with
  | none => exact ⟨nofun, fun name key => by simp⟩
  | some url =>
    refine ⟨fun a mem => ?_, fun name key => ?_⟩
    · obtain rfl := List.mem_singleton.mp mem
      exact .entry Bool.false_ne_true
    · simp only [Option.toList_some, List.map_cons, List.map_nil, List.reverse_singleton,
        List.findSome?_singleton, Assignment.tells?, databasePath, lowered.1, lowered.2,
        Option.map_some, @eq_comm _ "database", @eq_comm _ "url"]

end Setting

namespace Settings

open Setting

/-- What the sources of settings give for an entry of a section: the variable that names the
database comes first, then the environment, then the file of the place, then the defaults. -/
def given? (defaults overrides : Option (List Char)) (env : List Variable) (name key : String) :
    Option Setting :=
  (databaseGives? env name key).or <| (environmentGives? env name key).or <|
    (overrides.bind (fileGives? · name key)).or (defaults.bind (fileGives? · name key))

/-- Settings are loaded from plain sources exactly as the settings that have of each entry what the
source gives that comes first among those that give it, and the default where none gives it. -/
theorem sources_override {defaults overrides : Option (List Char)} {env : List Variable}
    (plainDefaults : ∀ text ∈ defaults, isPlainFile text)
    (plainOverrides : ∀ text ∈ overrides, isPlainFile text) (plainEnv : IsPlainEnvironment env)
    (s : Settings) :
    load defaults overrides env = .ok s ↔ s.AreGiven (given? defaults overrides env) := by
  have plainFiles : ∀ text ∈ defaults.toList ++ overrides.toList, isPlainFile text :=
    List.forall_mem_append.mpr ⟨by simpa using plainDefaults, by simpa using plainOverrides⟩
  obtain ⟨as, read, plain, tells⟩ := exists_mapM_ofFile plainFiles
  obtain ⟨plainOfEnv, tellsOfEnv⟩ := ofEnvironment_tells plainEnv
  obtain ⟨plainOfDatabase, tellsOfDatabase⟩ := ofDatabaseVariable_tells env
  obtain ⟨root, made, tables, entries⟩ := exists_ofAssignments
    (List.forall_mem_append.mpr ⟨List.forall_mem_append.mpr ⟨plain, plainOfEnv⟩, plainOfDatabase⟩)
  have loaded : load defaults overrides env = ofTree (.table root) := by
    rw [load, ofSources, read, ← made]
    rfl
  have same : ∀ name ∈ sectionNames, root.at? name = given? defaults overrides env name := by
    intro name known
    funext key
    have files : (defaults.toList ++ overrides.toList).reverse.findSome? (fileGives? · name key) =
        (overrides.bind (fileGives? · name key)).or (defaults.bind (fileGives? · name key)) := by
      rw [List.reverse_append, List.findSome?_append]
      cases defaults <;> cases overrides <;> simp [List.findSome?_singleton]
    rw [entries name known key, List.reverse_append, List.findSome?_append, List.reverse_append,
      List.findSome?_append, tells name known, tellsOfEnv name known, tellsOfDatabase name key,
      files, given?]
  rw [loaded, ofTree_eq_ok_iff tables]
  exact ⟨.congr same, .congr fun name known => (same name known).symm⟩

def specimenFile : List Char :=
  ["\x7b\"server\": \x7b\"host\": \"h\", \"port\": 80\x7d,",
    "\"database\": \x7b\"url\": \"u\"\x7d,",
    "\"auth\": \x7b\"jwt_secret\": \"s\"\x7d,",
    "\"notifications\": \x7b\"endpoint\": \"e\"\x7d,",
    "\"photos\": \x7b\"base_url\": \"p\"\x7d\x7d"].flatMap String.toList

/-- The host is that of the first file, the port that of the second one, the number of workers and
the database those of variables, and the rest has its defaults, be its section there or not. -/
theorem sources_override_specimen :
    let overrides := ["\x7b\"Server\": \x7b\"PORT\": \"90\", \"workers\": 2\x7d,",
      "\"logging\": \x7b\"level\": \"debug\"\x7d\x7d"].flatMap String.toList
    let env := [("SPARK__Server__Workers", "4"), ("HOME", "/"), ("DATABASE_URL", "v")]
    let s : Settings :=
      { server := ⟨"h", 90, some 4⟩, database := ⟨"v", none, none, none, none⟩, auth := ⟨"s"⟩
        notifications := ⟨"e", 5⟩, photos := ⟨"p"⟩, matching := ⟨3, 10000⟩
        logging := ⟨"debug", "json"⟩ }
    load (some specimenFile) (some overrides) env = .ok s ∧
      s.AreGiven (given? (some specimenFile) (some overrides) env) := by
  intro overrides env s
  have plainDefaults : isPlainFile specimenFile := by decide +kernel
  have plainOverrides : isPlainFile overrides := by decide +kernel
  have workers : Names "SPARK__Server__Workers" "server" "workers" :=
    { lowered := by decide +kernel, partWord := ⟨by decide, by decide, by decide⟩
      keyWord := ⟨by decide, by decide, by decide⟩, apart := by decide }
  have plainEnv : IsPlainEnvironment env := by
    refine ⟨fun v mem ours => ?_, by decide +kernel⟩
    rcases List.mem_cons.mp mem with rfl | others
    · exact ⟨"server", "workers", workers⟩
    · have foreign : ∀ v ∈ env.tail, ¬isOfSettings v := by decide +kernel
      exact absurd ours (foreign v others)
  have loaded : load (some specimenFile) (some overrides) env = .ok s := by decide +kernel
  refine ⟨loaded, (sources_override ?_ ?_ plainEnv s).mp loaded⟩
  · simpa using plainDefaults
  · simpa using plainOverrides

end Settings
end Matchmaking
