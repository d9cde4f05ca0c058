/-! Powers of two, which bound the numbers of so many bits, and powers of ten. -/
namespace Matchmaking

/-- The naturals of `n` bits are those below. -/
def twoTo (n : Nat) : Nat := Nat.pow 2 n

/-- The naturals of `n` decimal digits are those below. -/
def tenTo (n : Nat) : Nat := Nat.pow 10 n

@[simp] theorem twoTo_zero : twoTo 0 = 1 := rfl

@[simp] theorem tenTo_zero : tenTo 0 = 1 := rfl

theorem tenTo_pos (n : Nat) : 0 < tenTo n := Nat.pow_pos (Nat.zero_lt_succ 9)

end Matchmaking
