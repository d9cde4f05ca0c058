import Matchmaking.Time.Calendar
/-! Moments of universal time, ordered. Nanoseconds from a thousand million on stand for the leap
second after the counted one. -/
namespace Matchmaking

structure Timestamp where
  /-- Whole seconds since 1970-01-01T00:00:00Z. -/
  seconds : Int
  nanos : Nat := 0
  deriving DecidableEq, Repr, Inhabited

namespace Timestamp

protected def le (a b : Timestamp) : Prop :=
  a.seconds < b.seconds ∨ a.seconds = b.seconds ∧ a.nanos ≤ b.nanos

instance : LE Timestamp := ⟨Timestamp.le⟩

instance (a b : Timestamp) : Decidable (a ≤ b) := by
  show Decidable (a.seconds < b.seconds ∨ a.seconds = b.seconds ∧ a.nanos ≤ b.nanos)
  infer_instance

theorem le_def {a b : Timestamp} :
    a ≤ b ↔ a.seconds < b.seconds ∨ a.seconds = b.seconds ∧ a.nanos ≤ b.nanos := Iff.rfl

theorem le_refl (a : Timestamp) : a ≤ a := le_def.2 (.inr ⟨rfl, Nat.le_refl _⟩)

theorem le_trans {a b c : Timestamp} (h : a ≤ b) (k : b ≤ c) : a ≤ c := by
  rw [le_def] at *; omega

theorem le_total (a b : Timestamp) : a ≤ b ∨ b ≤ a := by
  simp only [le_def]; omega

theorem le_antisymm {a b : Timestamp} (h : a ≤ b) (k : b ≤ a) : a = b := by
  rw [le_def] at *
  cases a; cases b
  simp only [mk.injEq] at *
  omega

def ofMicros (micros : Int) : Timestamp := ⟨micros / 1000000, (micros % 1000000).toNat * 1000⟩

def ofMillis (millis : Int) : Timestamp := ofMicros (millis * 1000)

end Timestamp
end Matchmaking
