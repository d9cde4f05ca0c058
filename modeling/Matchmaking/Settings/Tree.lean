import Matchmaking.Text.LowerCase
/-! Settings as a tree of tables. Sources are merged into one tree key by key: a table goes into
the table that is there, anything else takes the place of what is there. Keys are compared in
lower case. -/
namespace Matchmaking

inductive Setting
  | null
  | flag (value : Bool)
  | int (value : Int)
  | float (value : Float)
  | text (value : String)
  | list (items : List Setting)
  | table (entries : List (String × Setting))
  deriving Inhabited

namespace Setting

/-- Entries with keys in lower case, each at most once. -/
abbrev Table := List (String × Setting)

namespace Table

/-- Sets the value of a key, which keeps its place. -/
def set (key : String) (value : Setting) : Table → Table
  | [] => [(key, value)]
  | (k, v) :: rest => if k = key then (k, value) :: rest else (k, v) :: set key value rest

theorem lookup_set_self (key : String) (value : Setting) (t : Table) :
    (t.set key value).lookup key = some value := by
  induction t with
  | nil => simp [set]
  | cons e rest ih =>
    obtain ⟨k, v⟩ := e
    by_cases h : k = key
    · simp [set, h]
    · have h' : (key == k) = false := by simpa using Ne.symm h
      simp [set, h, h', List.lookup_cons, ih]

theorem lookup_set_of_ne {key other : String} (h : other ≠ key) (value : Setting) (t : Table) :
    (t.set key value).lookup other = t.lookup other := by
  induction t with
  | nil => simp [set, List.lookup_cons, beq_eq_false_iff_ne.2 h]
  | cons e rest ih =>
    obtain ⟨k, v⟩ := e
    by_cases hk : k = key
    · subst hk
      simp [set, List.lookup_cons, beq_eq_false_iff_ne.2 h]
    · simp only [set, hk, if_false, List.lookup_cons]
      split <;> simp_all

end Table

/-- The entries of a table. Anything else has none. -/
def entries : Setting → Table
  | table t => t
  | _ => []

def items : Setting → List Setting
  | list xs => xs
  | _ => []

mutual

/-- Merges a value into a table under a key. A table without entries changes nothing that is
there. -/
def merge (t : Table) (key : String) : Setting → Table
  | .table incoming =>
    let key := Text.lowerCase key
    t.set key (mergeAll ((t.lookup key).getD (.table [])) incoming)
  | value => t.set (Text.lowerCase key) value

/-- Merges entries into a value, which becomes a table if there are any. -/
def mergeAll (target : Setting) : List (String × Setting) → Setting
  | [] => target
  | (key, value) :: rest => mergeAll (.table (merge target.entries key value)) rest

end

/-- A step into a tree: to the entry of a table or to an item of a list. -/
inductive Step
  | key (name : String)
  | item (index : Int)
  deriving DecidableEq, Repr

abbrev Path := List Step

/-- The position of an index in a list of that length; negative indexes count from its end. -/
def position (index : Int) (length : Nat) : Nat :=
  if 0 ≤ index then index.toNat else (length + index).toNat

def setItem (items : List Setting) (i : Nat) (value : Setting) : List Setting :=
  (items ++ List.replicate (i + 1 - items.length) null).set i value

/-- Sets the value at a path. What stands on the way and is no table or no list becomes one. -/
def assign (value : Setting) : Path → Setting → Setting
  | [], _ => value
  | [.key k], s => .table (merge s.entries k value)
  | .key k :: rest, s =>
    let k := Text.lowerCase k
    .table (s.entries.set k (assign value rest ((s.entries.lookup k).getD null)))
  | [.item i], s => .list (setItem s.items (position i s.items.length) value)
  | .item i :: rest, s =>
    let i := position i s.items.length
    .list (setItem s.items i (assign value rest (s.items.getD i null)))

end Setting
end Matchmaking
