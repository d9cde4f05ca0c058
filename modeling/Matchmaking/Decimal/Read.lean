import Matchmaking.Decimal.Binary
/-! Numbers read from free text, as a person writes them into a variable of the environment: an
optional sign, digits, and for a double also a point, an exponent or one of the words for infinity
and for a value that is no number. -/
namespace Matchmaking
namespace Decimal

def digitsValue (digits : List Char) : Nat := Nat.ofDigitChars 10 digits 0

/-- Splits off a leading sign; the first part tells whether it was a minus. -/
def splitSign : List Char → Bool × List Char
  | '-' :: rest => (true, rest)
  | '+' :: rest => (false, rest)
  | rest => (false, rest)

/-- One digit or more and nothing else. -/
def readDigits? (s : List Char) : Option Nat :=
  if s ≠ [] ∧ s.all Char.isDigit then some (digitsValue s) else none

/-- Digits, which a plus may precede. -/
def readNat? : List Char → Option Nat
  | '+' :: rest => readDigits? rest
  | s => readDigits? s

/-- Digits, which a sign may precede. -/
def readInt? (s : List Char) : Option Int :=
  let (negative, rest) := splitSign s
  (readDigits? rest).map fun n => if negative then -(n : Int) else n

/-- The exponent after an `e`, with an optional sign; no text stands for zero. -/
def readExponent? : List Char → Option Int
  | [] => some 0
  | c :: rest => if c = 'e' ∨ c = 'E' then readInt? rest else none

def infinityWords : List (List Char) := ["inf".toList, "infinity".toList]

/-- Digits with an optional point among or around them, and an optional exponent. -/
def readUnsigned? (negative : Bool) (s : List Char) : Option Float :=
  let word := s.map Char.toLower
  if word ∈ infinityWords then some (ofRatio negative (twoTo 1100) 1)
  else if word = "nan".toList then some (0 / 0)
  else
    let whole := s.takeWhile Char.isDigit
    let rest := s.dropWhile Char.isDigit
    let (fraction, rest) := match rest with
      | '.' :: after => (after.takeWhile Char.isDigit, after.dropWhile Char.isDigit)
      | _ => ([], rest)
    if whole = [] ∧ fraction = [] then none
    else (readExponent? rest).map fun e =>
      ofScaled negative (digitsValue (whole ++ fraction)) (e - fraction.length)

/-- The double nearest to a number in free text. -/
def readFloat? (s : List Char) : Option Float :=
  let (negative, rest) := splitSign s
  readUnsigned? negative rest

end Decimal
end Matchmaking
