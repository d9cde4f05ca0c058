import Mathlib.Data.Prod.Lex
import Mathlib.Data.Int.Order.Basic
import Mathlib.Tactic.Common
/-! Doubles in their usual order. Each that is a number stands at a place in a linear order, and two
of them compare as their places do; what is no number compares with nothing. So comparison is
transitive, although a double need not be as small as itself. -/
namespace Matchmaking
namespace Decimal

open Float.Model (UnpackedFloat)
open Float.Model.UnpackedFloat (Sign)

/-- Where a double stands: its class, from negative infinity up, then its exponent and its digits,
both the other way round below zero. -/
def standing? : UnpackedFloat → Option (ℤ ×ₗ ℤ ×ₗ ℤ)
  | .notANumber => none
  | .infinity .negative => some (toLex (-2, toLex (0, 0)))
  | .finite .negative m e _ => some (toLex (-1, toLex (-e, -m)))
  | .zero _ => some (toLex (0, toLex (0, 0)))
  | .finite .positive m e _ => some (toLex (1, toLex (e, m)))
  | .infinity .positive => some (toLex (2, toLex (0, 0)))

section Comparison

variable {e e' : ℤ} {m m' : ℕ}

theorem isLE_then : ((compare e e').then (compare m m')).isLE = true ↔
    e < e' ∨ e = e' ∧ m ≤ m' := by
  rw [Ordering.isLE_then_iff_or, compare_lt_iff_lt, compare_eq_iff_eq, Nat.isLE_compare]

theorem isGE_then : ((compare e e').then (compare m m')).isGE = true ↔
    e' < e ∨ e = e' ∧ m' ≤ m := by
  rw [← Ordering.isLE_swap, Ordering.swap_then, ← Std.OrientedOrd.eq_swap,
    ← Std.OrientedOrd.eq_swap, isLE_then, eq_comm]

theorem then_eq_lt : (compare e e').then (compare m m') = .lt ↔ e < e' ∨ e = e' ∧ m < m' := by
  rw [Ordering.then_eq_lt, compare_lt_iff_lt, compare_eq_iff_eq, compare_lt_iff_lt]

theorem then_eq_gt : (compare e e').then (compare m m') = .gt ↔ e' < e ∨ e = e' ∧ m' < m := by
  rw [Ordering.then_eq_gt, compare_gt_iff_gt, compare_eq_iff_eq, compare_gt_iff_gt]

theorem compare_signs : compare Sign.negative Sign.negative = .eq ∧
    compare Sign.negative Sign.positive = .lt ∧ compare Sign.positive Sign.negative = .gt ∧
      compare Sign.positive Sign.positive = .eq := ⟨rfl, rfl, rfl, rfl⟩

end Comparison

theorem le_iff_standing {a b : UnpackedFloat} :
    a.le b = true ↔ ∃ x ∈ standing? a, ∃ y ∈ standing? b, x ≤ y := by
  rcases a with (_ | _) | _ | _ | ⟨_ | _, m, e, _⟩ <;>
    rcases b with (_ | _) | _ | _ | ⟨_ | _, m', e', _⟩ <;>
    unfold standing? UnpackedFloat.le UnpackedFloat.compare <;>
    simp [Prod.Lex.le_iff, isLE_then, isGE_then, compare_signs]

theorem lt_iff_standing {a b : UnpackedFloat} :
    a.lt b = true ↔ ∃ x ∈ standing? a, ∃ y ∈ standing? b, x < y := by
  rcases a with (_ | _) | _ | _ | ⟨_ | _, m, e, _⟩ <;>
    rcases b with (_ | _) | _ | _ | ⟨_ | _, m', e', _⟩ <;>
    unfold standing? UnpackedFloat.lt UnpackedFloat.compare <;>
    simp [Prod.Lex.lt_iff, then_eq_lt, then_eq_gt, compare_signs]

section Doubles

variable {a b c : Float}

theorem le_iff : a ≤ b ↔ a.toModel.unpack.le b.toModel.unpack = true := by
  change decide _ = true ↔ _
  rw [decide_eq_true_iff]
  rfl

theorem lt_iff : a < b ↔ a.toModel.unpack.lt b.toModel.unpack = true := by
  change decide _ = true ↔ _
  rw [decide_eq_true_iff]
  rfl

theorem double_le_trans (h : a ≤ b) (k : b ≤ c) : a ≤ c := by
  rw [le_iff, le_iff_standing] at h k ⊢
  obtain ⟨x, hx, y, hy, low⟩ := h
  obtain ⟨_, hy', z, hz, high⟩ := k
  obtain rfl := Option.mem_unique hy hy'
  exact ⟨x, hx, z, hz, low.trans high⟩

theorem double_lt_of_lt_of_le (h : a < b) (k : b ≤ c) : a < c := by
  rw [lt_iff, lt_iff_standing] at h ⊢
  rw [le_iff, le_iff_standing] at k
  obtain ⟨x, hx, y, hy, low⟩ := h
  obtain ⟨_, hy', z, hz, high⟩ := k
  obtain rfl := Option.mem_unique hy hy'
  exact ⟨x, hx, z, hz, low.trans_le high⟩

end Doubles

end Decimal
end Matchmaking

