/-! Fixed sets of names, and what is said of a text that is none of them. -/
namespace Matchmaking

/-- A text that is not one of the names of a kind of value. -/
structure UnknownName where
  kind : String
  value : String
  deriving DecidableEq, Repr

def UnknownName.message (e : UnknownName) : String := "unknown " ++ e.kind ++ " value: " ++ e.value

/-- The member of a list whose name is the given text. -/
def ofNameIn? {α : Type} (all : List α) (name : α → String) (s : String) : Option α :=
  all.find? fun a => name a == s

theorem name_of_ofNameIn? {α : Type} {all : List α} {name : α → String} {s : String} {a : α}
    (h : ofNameIn? all name s = some a) : name a = s := by
  simpa using List.find?_some h

theorem ofNameIn?_eq_none {α : Type} {all : List α} {name : α → String} {s : String} :
    ofNameIn? all name s = none ↔ ∀ a ∈ all, name a ≠ s := by
  simp [ofNameIn?]

end Matchmaking
