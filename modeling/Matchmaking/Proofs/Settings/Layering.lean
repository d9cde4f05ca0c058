import Matchmaking.Proofs.Settings.Reading
/-! How assignments make a tree. An assignment that gives a section as a table, or one entry of a
section, says something of some entries and leaves all others as they are; so what a tree has in
the end is said by the last assignment that says anything of it. -/
namespace Matchmaking
namespace Setting

def isTable : Setting → Bool
  | table _ => true
  | _ => false

/-- What entries say of a key: the last one that bears it, in whatever case, counts. -/
def lastOf? (key : String) (entries : List (String × Setting)) : Option Setting :=
  entries.reverse.findSome? fun e => if Text.lowerCase e.1 = key then some e.2 else none

theorem lastOf?_cons (key : String) (e : String × Setting) (rest : List (String × Setting)) :
    lastOf? key (e :: rest) =
      (lastOf? key rest).or (if Text.lowerCase e.1 = key then some e.2 else none) := by
  simp [lastOf?, List.findSome?_append]

section

variable {t : Table} {entries : List (String × Setting)} {target v : Setting} {key name : String}

theorem merge_of_leaf (leaf : ¬v.isTable) : merge t key v = t.set (Text.lowerCase key) v := by
  cases v with
  | table => exact absurd rfl leaf
  | _ => rfl

theorem lookup_set (key name : String) (v : Setting) (t : Table) :
    (t.set key v).lookup name = if key = name then some v else t.lookup name := by
  split
  · next same => rw [same, Table.lookup_set_self]
  · next other => rw [Table.lookup_set_of_ne (Ne.symm other)]

theorem lookup_mergeAll (leaves : ∀ e ∈ entries, ¬e.2.isTable) :
    (mergeAll target entries).entries.lookup name =
      (lastOf? name entries).or (target.entries.lookup name) := by
  induction entries generalizing target with
  | nil => rfl
  | cons e rest ih =>
    obtain ⟨leaf, leaves⟩ := List.forall_mem_cons.mp leaves
    have first : mergeAll target (e :: rest) =
        mergeAll (.table (target.entries.set (Text.lowerCase e.1) e.2)) rest := by
      rw [mergeAll, merge_of_leaf leaf]
    rw [first, ih leaves, lastOf?_cons, entries, lookup_set]
    split <;> simp

theorem exists_table_of_mergeAll (t : Table) (entries : List (String × Setting)) :
    ∃ t', mergeAll (.table t) entries = .table t' := by
  induction entries generalizing t with
  | nil => exact ⟨t, rfl⟩
  | cons e rest ih => exact ih (merge t e.1 e.2)

end

namespace Assignment

def tells? (a : Assignment) (name key : String) : Option Setting :=
  match a.path with
  | [.key p] => if Text.lowerCase p = name then lastOf? key a.value.entries else none
  | [.key p, .key q] =>
    if Text.lowerCase p = name ∧ Text.lowerCase q = key then some a.value else none
  | _ => none

/-- The assignment gives a section as a table of leaves, or a leaf for an entry of one, or it has
to do with something else. -/
inductive IsPlain : Assignment → Prop
  | part {p : String} {entries : List (String × Setting)}
      (leaves : ∀ e ∈ entries, ¬e.2.isTable) : IsPlain ⟨[.key p], .table entries⟩
  | entry {p q : String} {v : Setting} (leaf : ¬v.isTable) : IsPlain ⟨[.key p, .key q], v⟩
  | other {p : String} {rest : Path} {v : Setting}
      (elsewhere : Text.lowerCase p ∉ Settings.sectionNames) : IsPlain ⟨.key p :: rest, v⟩

end Assignment

open Settings (sectionNames)

variable {root : Table} {name : String} {v : Setting} {a : Assignment} {as : List Assignment}

theorem at?_set (p name key : String) (v : Setting) (root : Table) :
    (root.set p v).at? name key =
      if p = name then v.entries.lookup key else root.at? name key := by
  rw [Table.at?, lookup_set]
  split <;> rfl

theorem Table.HasTables.set {p : String} {v : Setting} (tables : root.HasTables)
    (isTable : p ∈ sectionNames → ∃ t, v = .table t) : (root.set p v).HasTables := by
  intro name known w found
  rw [Option.mem_def, lookup_set] at found
  split at found
  · next same =>
    subst same
    obtain rfl := Option.some.inj found
    exact isTable known
  · exact tables name known w found

theorem assign_entry (leaf : ¬v.isTable) (p q : String) (root : Table) :
    assign v [.key p, .key q] (.table root) =
      .table (root.set (Text.lowerCase p) (.table
        (((root.lookup (Text.lowerCase p)).getD null).entries.set (Text.lowerCase q) v))) := by
  rw [← merge_of_leaf leaf]
  rfl

theorem exists_assign_elsewhere (p : String) (rest : Path) (v : Setting) (root : Table) :
    ∃ w, assign v (.key p :: rest) (.table root) = .table (root.set (Text.lowerCase p) w) := by
  cases rest with
  | nil => cases v <;> exact ⟨_, rfl⟩
  | cons step rest => exact ⟨_, rfl⟩

/-- A plain assignment sets what it says and leaves everything else of the sections as it is. -/
theorem Assignment.IsPlain.assign (plain : a.IsPlain) (tables : root.HasTables) :
    ∃ root' : Table, Setting.assign a.value a.path (.table root) = .table root' ∧
      root'.HasTables ∧ ∀ name ∈ sectionNames, ∀ key,
        root'.at? name key = (a.tells? name key).or (root.at? name key) := by
  cases plain with
  | @part p entries leaves =>
    have step : Setting.assign (.table entries) [.key p] (.table root) =
        .table (root.set (Text.lowerCase p)
          (mergeAll ((root.lookup (Text.lowerCase p)).getD (.table [])) entries)) := rfl
    refine ⟨_, step, tables.set fun known => ?_, fun name known key => ?_⟩
    · cases before : root.lookup (Text.lowerCase p) with
      | none => exact exists_table_of_mergeAll [] entries
      | some v =>
        obtain ⟨t, rfl⟩ := tables _ known v before
        exact exists_table_of_mergeAll t entries
    · rw [at?_set, lookup_mergeAll leaves]
      dsimp only [tells?]
      split
      · next same =>
        rw [same, Table.at?]
        cases root.lookup name <;> rfl
      · rfl
  | @entry p q v leaf =>
    refine ⟨_, assign_entry leaf p q root, tables.set fun _ => ⟨_, rfl⟩, fun name known key => ?_⟩
    rw [at?_set, Setting.entries, lookup_set]
    dsimp only [tells?]
    by_cases same : Text.lowerCase p = name
    · rw [if_pos same, Table.at?, same]
      by_cases sameKey : Text.lowerCase q = key
      · simp [sameKey]
      · cases found : root.lookup name <;> simp [sameKey, Setting.entries]
    · simp [same]
  | @other p rest v elsewhere =>
    obtain ⟨w, made⟩ := exists_assign_elsewhere p rest v root
    refine ⟨_, made, tables.set fun known => absurd known elsewhere, fun name known key => ?_⟩
    have apart : Text.lowerCase p ≠ name := fun same => elsewhere (same ▸ known)
    rw [at?_set, if_neg apart]
    have silent : tells? ⟨.key p :: rest, v⟩ name key = none := by
      unfold tells?
      split <;> simp_all
    rw [silent, Option.none_or]

/-- Plain assignments, one after the other: of an entry, the last one that says anything counts. -/
theorem exists_foldl_assign (plain : ∀ a ∈ as, a.IsPlain) (tables : root.HasTables) :
    ∃ root' : Table, as.foldl (fun tree a => assign a.value a.path tree) (.table root) =
        .table root' ∧ root'.HasTables ∧ ∀ name ∈ sectionNames, ∀ key,
      root'.at? name key = (as.reverse.findSome? (·.tells? name key)).or (root.at? name key) := by
  induction as generalizing root with
  | nil => exact ⟨root, rfl, tables, fun _ _ _ => rfl⟩
  | cons a rest ih =>
    obtain ⟨first, others⟩ := List.forall_mem_cons.mp plain
    obtain ⟨middle, made, tables, tells⟩ := first.assign tables
    obtain ⟨root', madeRest, tables', tellsRest⟩ := ih others tables
    refine ⟨root', ?_, tables', fun name known key => ?_⟩
    · rw [List.foldl_cons, made, madeRest]
    · rw [tellsRest name known key, tells name known key, List.reverse_cons, List.findSome?_append,
        List.findSome?_singleton, Option.or_assoc]

theorem exists_ofAssignments (plain : ∀ a ∈ as, a.IsPlain) :
    ∃ root : Table, ofAssignments as = .table root ∧ root.HasTables ∧
      ∀ name ∈ sectionNames, ∀ key,
        root.at? name key = as.reverse.findSome? (·.tells? name key) := by
  have nothing : Table.HasTables [] := nofun
  obtain ⟨root, made, tables, tells⟩ := exists_foldl_assign plain nothing
  refine ⟨root, made, tables, fun name known key => ?_⟩
  rw [tells name known key]
  exact Option.or_none

end Setting
end Matchmaking
