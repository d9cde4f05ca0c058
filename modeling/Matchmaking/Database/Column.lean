import Matchmaking.Engine.Error
import Matchmaking.Power
/-! Columns of the database. Ids are stored as signed words of 64 bits and ages as signed words of
32 bits; a column holds null or a value. -/
namespace Matchmaking
namespace Database

abbrev Cell (α : Type) := Option α

/-- The value of a column that must not be null. -/
def present {α : Type} : Cell α → Except StoreError α
  | some v => .ok v
  | none => .error (.backend "unexpected null")

/-- An id as it is stored. Ids that a signed word cannot hold are refused. -/
def toId (id : Nat) : Except StoreError Int64 :=
  if id < twoTo 63 then .ok (Int64.ofNat id)
  else .error (.malformed ("id " ++ toString id ++ " out of range"))

def ofId (stored : Int64) : Except StoreError Nat :=
  if 0 ≤ stored.toInt then .ok stored.toInt.toNat
  else .error (.malformed ("negative id " ++ toString stored.toInt))

/-- The id in a column. -/
def readId (cell : Cell Int64) : Except StoreError Nat := do ofId (← present cell)

/-- An age of the column of that name. -/
def ofAge (column : String) (stored : Int32) : Except StoreError Nat :=
  if 0 ≤ stored.toInt then .ok stored.toInt.toNat
  else .error (.malformed ("negative " ++ column ++ " " ++ toString stored.toInt))

/-- A name out of a fixed set. -/
def named {α : Type} (parse : String → Except UnknownName α) (stored : String) :
    Except StoreError α :=
  (parse stored).mapError .ofUnknownName

/-- The gender in a column, where null stands for none. -/
def readGender : Cell String → Except StoreError (Option Gender)
  | some stored => (named Gender.parse stored).map some
  | none => .ok none

theorem ofId_toId {id : Nat} {stored : Int64} (h : toId id = .ok stored) :
    ofId stored = .ok id := by
  unfold toId at h
  split at h
  · next small =>
    cases h
    simp [ofId, Int64.toInt_ofNat_of_lt small]
  · simp at h

theorem toId_ofId {stored : Int64} {id : Nat} (h : ofId stored = .ok id) :
    toId id = .ok stored := by
  unfold ofId at h
  split at h
  · next nonneg =>
    simp only [Except.ok.injEq] at h
    subst h
    have bound := stored.toInt_lt
    have small : stored.toInt.toNat < twoTo 63 := (Int.toNat_lt nonneg).2 bound
    simp only [toId, small, if_true, Except.ok.injEq]
    apply Int64.toInt_inj.1
    rw [Int64.toInt_ofNat_of_lt small]
    omega
  · simp at h

end Database
end Matchmaking
