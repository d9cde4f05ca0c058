import Matchmaking.Decimal.Binary
/-! The shortest decimal digits that read back as a given double. Of the decimal grids with one,
two, up to seventeen digits the first one that has a point in the interval of reals rounding to
the double is taken, and on it the point nearest to the double, the upper one of two equally
near. -/
namespace Matchmaking
namespace Decimal

/-- Whole digits times a power of ten. -/
structure Scaled where
  digits : Nat
  scale : Int
  deriving DecidableEq, Repr

/-- A positive double with the interval that rounds to it, all over one denominator. The ends
belong to the interval when the mantissa is even. -/
structure Interval where
  low : Nat
  value : Nat
  high : Nat
  denominator : Nat
  closed : Bool
  deriving DecidableEq, Repr

/-- The interval of the double `m * 2 ^ q`. Below a power of two the doubles lie twice as dense. -/
def Interval.ofBinary (m : Nat) (q : Int) : Interval :=
  let below := if m = twoTo 52 && -1074 < q then 1 else 2
  let up := twoTo (q - 2).toNat
  { low := (4 * m - below) * up
    value := 4 * m * up
    high := (4 * m + 2) * up
    denominator := twoTo (2 - q).toNat
    closed := m % 2 == 0 }

def digitCount (n : Nat) : Nat := (Nat.toDigits 10 n).length

/-- The exponent of the first digit of a positive quotient. -/
def leadingExponent (num den : Nat) : Int :=
  if den ≤ num then (digitCount (num / den) : Int) - 1
  else -(digitCount ((den + num - 1) / num - 1) : Int)

/-- The grid point of the interval nearest to its value, on the grid of multiples of
`10 ^ scale`. -/
def Interval.pointOn (i : Interval) (scale : Int) : Option Nat :=
  let unit := i.denominator * tenTo scale.toNat
  let stretch := tenTo (-scale).toNat
  let low := i.low * stretch
  let value := i.value * stretch
  let high := i.high * stretch
  let inside (c : Nat) : Bool :=
    if i.closed then low ≤ c * unit && c * unit ≤ high else low < c * unit && c * unit < high
  let c := value / unit
  match inside c, inside (c + 1) with
  | false, false => none
  | true, false => some c
  | false, true => some (c + 1)
  | true, true => if 2 * (value % unit) < unit then some c else some (c + 1)

/-- A point divisible by ten is a point of the next coarser grid. -/
def Scaled.ofPoint (c : Nat) (scale : Int) : Scaled :=
  if c % 10 = 0 then ⟨c / 10, scale + 1⟩ else ⟨c, scale⟩

/-- The shortest digits for the positive double `m * 2 ^ q`. -/
def shortest (m : Nat) (q : Int) : Scaled :=
  let i := Interval.ofBinary m q
  let lead := leadingExponent i.value i.denominator
  let found := (List.range 17).findSome? fun n : Nat =>
    let scale := lead - (n : Int)
    (i.pointOn scale).map fun c => Scaled.ofPoint c scale
  found.getD ⟨m, q⟩

/-- Digits with a decimal point and without an exponent, padded with zeros where needed. -/
def Scaled.positional (s : Scaled) : List Char :=
  let digits := Nat.toDigits 10 s.digits
  if 0 ≤ s.scale then digits ++ List.replicate s.scale.toNat '0'
  else
    let places := (-s.scale).toNat
    if places < digits.length then
      digits.take (digits.length - places) ++ '.' :: digits.drop (digits.length - places)
    else '0' :: '.' :: (List.replicate (places - digits.length) '0' ++ digits)

def signed (negative : Bool) (text : String) : String := if negative then "-" ++ text else text

/-- The text of a double: its shortest digits without an exponent, and words for what has none. -/
def text (x : Float) : String :=
  match Binary.ofFloat x with
  | .nan => "NaN"
  | .infinite negative => signed negative "inf"
  | .finite negative 0 _ => signed negative "0"
  | .finite negative m q => signed negative (String.ofList (shortest m q).positional)

end Decimal
end Matchmaking
