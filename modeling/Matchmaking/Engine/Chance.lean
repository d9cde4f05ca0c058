/-! A source of chance: words of 64 bits, mixed from a counter that moves on by a fixed odd amount.
What is drawn below a count is the remainder of a word, so it is always below the count. -/
namespace Matchmaking

structure Chance where
  counter : UInt64
  deriving Repr

namespace Chance

def stride : UInt64 := 0x9e3779b97f4a7c15

def mix (z : UInt64) : UInt64 :=
  let z := (z ^^^ (z >>> 30)) * 0xbf58476d1ce4e5b9
  let z := (z ^^^ (z >>> 27)) * 0x94d049bb133111eb
  z ^^^ (z >>> 31)

/-- An index below a count, and the source after it. -/
def draw (c : Chance) (count : Nat) : Nat × Chance :=
  let next := c.counter + stride
  ((mix next).toNat % count, ⟨next⟩)

theorem draw_lt (c : Chance) {count : Nat} (h : 0 < count) : (c.draw count).1 < count :=
  Nat.mod_lt _ h

/-- A number of indexes below a count. -/
def draws (c : Chance) (count : Nat) : Nat → List Nat
  | 0 => []
  | n + 1 =>
    let (index, c) := c.draw count
    index :: c.draws count n

end Chance
end Matchmaking
