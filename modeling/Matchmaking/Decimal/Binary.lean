import Matchmaking.Power
/-! Double-precision numbers taken apart and put together. A finite number is `m * 2 ^ q` with a
sign; `ofRatio` is the double nearest to a quotient of naturals, a half going to the even
neighbour. -/
namespace Matchmaking
namespace Decimal

/-- What the bits of a double stand for. -/
inductive Binary
  | nan
  | infinite (negative : Bool)
  | finite (negative : Bool) (mantissa : Nat) (exponent : Int)
  deriving DecidableEq, Repr

/-- The sign, the eleven bits of the exponent and the fifty-two bits of the fraction. -/
def Binary.ofBits (bits : Nat) : Binary :=
  let negative := bits / twoTo 63 % 2 == 1
  let biased : Nat := bits / twoTo 52 % twoTo 11
  let fraction := bits % twoTo 52
  if biased = 2047 then
    if fraction = 0 then .infinite negative else .nan
  else if biased = 0 then .finite negative fraction (-1074)
  else .finite negative (fraction + twoTo 52) ((biased : Int) - 1075)

def Binary.ofFloat (x : Float) : Binary := .ofBits x.toBits.toNat

/-- The bits of the positive double `m * 2 ^ q`, for `m ≤ 2 ^ 53` and, where `m < 2 ^ 52`, for
`q = -1074`. A mantissa of `2 ^ 53` carries into the exponent. -/
def positiveBits (m : Nat) (q : Int) : Nat :=
  if m < twoTo 52 then m
  else
    let biased : Nat := (q + 1075).toNat
    if 2047 ≤ biased + (m / twoTo 53) then 2047 * twoTo 52
    else biased * twoTo 52 + (m - twoTo 52)

/-- The quotient rounded to a whole number, a half going to the even neighbour. -/
def divHalfEven (num den : Nat) : Nat :=
  let c := num / den
  let r := num % den
  if 2 * r < den then c
  else if den < 2 * r then c + 1
  else if c % 2 = 0 then c else c + 1

/-- The whole part of the binary logarithm of `num / den`, both positive. -/
def ratioLog2 (num den : Nat) : Int :=
  let e : Int := (num.log2 : Int) - den.log2
  let reaches := if 0 ≤ e then den * twoTo e.toNat ≤ num else den ≤ num * twoTo (-e).toNat
  if reaches then e else e - 1

/-- The double nearest to `num / den`, infinite when the quotient is too large. -/
def ofRatio (negative : Bool) (num den : Nat) : Float :=
  let magnitude :=
    if num = 0 then 0
    else
      let q := max (-1074) (ratioLog2 num den - 52)
      let m := if 0 ≤ q then divHalfEven num (den * twoTo q.toNat)
        else divHalfEven (num * twoTo (-q).toNat) den
      positiveBits m q
  Float.ofBits (UInt64.ofNat (magnitude + if negative then twoTo 63 else 0))

/-- The double nearest to `digits * 10 ^ scale`. Scales beyond the range of doubles are settled
before any power of ten is computed. -/
def ofScaled (negative : Bool) (digits : Nat) (scale : Int) : Float :=
  let length : Int := (Nat.toDigits 10 digits).length
  if digits = 0 || length + scale < -330 then ofRatio negative 0 1
  else if 330 < length + scale then ofRatio negative (twoTo 1100) 1
  else if 0 ≤ scale then ofRatio negative (digits * tenTo scale.toNat) 1
  else ofRatio negative digits (tenTo (-scale).toNat)

end Decimal
end Matchmaking
