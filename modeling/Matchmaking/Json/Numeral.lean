import Matchmaking.Decimal.Shortest
import Matchmaking.Decimal.Read
/-! Number tokens of JSON, kept digit by digit: an integer token is told from a token with a point
or an exponent, and the digits are turned into a double only where a double is asked for. -/
namespace Matchmaking

/-- A number token: `-`, whole digits, digits after a point, a power of ten. -/
structure Numeral where
  negative : Bool := false
  whole : Nat
  fraction : List Char := []
  exponent : Option Int := none
  deriving DecidableEq, Repr, Inhabited

namespace Numeral

def ofNat (n : Nat) : Numeral := { whole := n }

/-- The value of an integer token without a sign. -/
def toNat? : Numeral → Option Nat
  | ⟨false, n, [], none⟩ => some n
  | _ => none

/-- The value of an integer token. Minus zero is no integer token. -/
def toInt? : Numeral → Option Int
  | ⟨false, n, [], none⟩ => some n
  | ⟨true, n + 1, [], none⟩ => some (-(n + 1 : Int))
  | _ => none

@[simp] theorem toNat?_ofNat (n : Nat) : (ofNat n).toNat? = some n := rfl

/-- Leading digits of a token as far as they fit 64 bits, with the power of ten that the digits
left out stand for. -/
structure Leading where
  digits : Nat := 0
  scale : Int := 0
  full : Bool := false

def digitValue (c : Char) : Nat := c.toNat - '0'.toNat

def Leading.fits (l : Leading) (c : Char) : Bool :=
  !l.full && l.digits * 10 + digitValue c < twoTo 64

def Leading.pushWhole (l : Leading) (c : Char) : Leading :=
  if l.fits c then { l with digits := l.digits * 10 + digitValue c }
  else { l with scale := l.scale + 1, full := true }

def Leading.pushFraction (l : Leading) (c : Char) : Leading :=
  if l.fits c then { l with digits := l.digits * 10 + digitValue c, scale := l.scale - 1 }
  else { l with full := true }

def leading (n : Numeral) : Leading :=
  let whole := (Nat.toDigits 10 n.whole).foldl Leading.pushWhole {}
  n.fraction.foldl Leading.pushFraction { whole with full := false }

def tenToFloat (n : Nat) : Float := Decimal.ofScaled false 1 n

/-- Division by a power of ten, by at most `10 ^ 308` at a time. -/
def divideByTenTo (x : Float) (n : Nat) : Float :=
  if n ≤ 308 then x / tenToFloat n
  else if x == 0 then x
  else divideByTenTo (x / tenToFloat 308) (n - 308)
termination_by n

/-- The double of a token: its leading digits, rounded once, are scaled once by a power of ten. A
token whose value is too large has no double. -/
def toFloat? (n : Numeral) : Option Float :=
  let l := n.leading
  let x := Float.ofNat l.digits
  let scale := l.scale + n.exponent.getD 0
  let y :=
    if scale < 0 then some (divideByTenTo x (-scale).toNat)
    else if x == 0 then some x
    else if 308 < scale then none
    else
      let y := x * tenToFloat scale.toNat
      if y.isInf then none else some y
  y.map fun y => if n.negative then -y else y

/-- The token a finite double is written as: its shortest digits, positional from `0.00001` up to
below `10 ^ 16`, and with an exponent outside that range. -/
def ofScaled (negative : Bool) (s : Decimal.Scaled) : Numeral :=
  let digits := Nat.toDigits 10 s.digits
  let point : Int := digits.length + s.scale
  if 0 ≤ s.scale ∧ point ≤ 16 then
    { negative, whole := s.digits * tenTo s.scale.toNat, fraction := ['0'] }
  else if -5 < point ∧ point ≤ 16 then
    let padded := List.replicate (1 - point).toNat '0' ++ digits
    let places := (-s.scale).toNat
    { negative
      whole := Decimal.digitsValue (padded.take (padded.length - places))
      fraction := padded.drop (padded.length - places) }
  else
    { negative
      whole := Decimal.digitsValue (digits.take 1)
      fraction := digits.drop 1
      exponent := some (point - 1) }

/-- The token of a double; none for what is not finite. -/
def ofFloat? (x : Float) : Option Numeral :=
  match Decimal.Binary.ofFloat x with
  | .finite negative 0 _ => some { negative, whole := 0, fraction := ['0'] }
  | .finite negative m q => some (ofScaled negative (Decimal.shortest m q))
  | _ => none

def exponentText (e : Int) : List Char :=
  'e' :: ((if e < 0 then ['-'] else []) ++ Nat.toDigits 10 e.natAbs)

def print (n : Numeral) : List Char :=
  (if n.negative then ['-'] else []) ++ Nat.toDigits 10 n.whole ++
    (if n.fraction = [] then [] else '.' :: n.fraction) ++
    (n.exponent.map exponentText).getD []

/-- Whole digits: a zero alone or digits that start with another one. -/
def readWhole? : List Char → Option (Nat × List Char)
  | '0' :: rest => if (rest.head?.any Char.isDigit) then none else some (0, rest)
  | s =>
    let digits := s.takeWhile Char.isDigit
    if digits = [] then none else some (Decimal.digitsValue digits, s.dropWhile Char.isDigit)

/-- The digits after a point; the token must have some. Without a point there are none. -/
def readFraction? : List Char → Option (List Char × List Char)
  | '.' :: rest =>
    let digits := rest.takeWhile Char.isDigit
    if digits = [] then none else some (digits, rest.dropWhile Char.isDigit)
  | s => some ([], s)

def readExponent? : List Char → Option (Option Int × List Char)
  | c :: rest =>
    if c = 'e' ∨ c = 'E' then
      let (negative, rest) := Decimal.splitSign rest
      let digits := rest.takeWhile Char.isDigit
      if digits = [] then none
      else
        let e : Int := Decimal.digitsValue digits
        some (some (if negative then -e else e), rest.dropWhile Char.isDigit)
    else some (none, c :: rest)
  | [] => some (none, [])

/-- Reads the longest number token a text starts with. -/
def read? (s : List Char) : Option (Numeral × List Char) := do
  let (negative, s) := match s with
    | '-' :: rest => (true, rest)
    | s => (false, s)
  let (whole, s) ← readWhole? s
  let (fraction, s) ← readFraction? s
  let (exponent, s) ← readExponent? s
  return (⟨negative, whole, fraction, exponent⟩, s)

end Numeral
end Matchmaking
