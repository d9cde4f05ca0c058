import Matchmaking.Time.Timestamp
import Matchmaking.Decimal.Read
import Matchmaking.Text.Blank
/-! Times as text. Writing follows RFC 3339 in universal time with as few fraction digits as are
exact, in groups of three. Reading takes any offset and is lenient where the standard is strict:
blanks between the parts, a blank in place of `T`, parts of fewer digits, signed years, and more
fraction digits than nanoseconds need. -/
namespace Matchmaking
namespace Timestamp

/-- A whole number of at least two digits. -/
def twoDigits (n : Nat) : List Char :=
  if n < 10 then ['0', Nat.digitChar n] else Nat.toDigits 10 n

def padded (width n : Nat) : List Char :=
  let digits := Nat.toDigits 10 n
  List.replicate (width - digits.length) '0' ++ digits

/-- Four digits; years that need more or lie before the year zero carry a sign. -/
def yearText (year : Int) : List Char :=
  if 0 ≤ year ∧ year ≤ 9999 then padded 4 year.toNat
  else (if year < 0 then '-' else '+') :: padded 4 year.natAbs

def fractionText (nanos : Nat) : List Char :=
  if nanos = 0 then []
  else if nanos % 1000000 = 0 then '.' :: padded 3 (nanos / 1000000)
  else if nanos % 1000 = 0 then '.' :: padded 6 (nanos / 1000)
  else '.' :: padded 9 nanos

def print (t : Timestamp) : List Char :=
  let date := Time.Date.ofDayNumber (t.seconds / 86400)
  let second := (t.seconds % 86400).toNat
  let leap := if t.nanos < 1000000000 then 0 else 1
  yearText date.year ++ '-' :: twoDigits date.month ++ '-' :: twoDigits date.day ++
    'T' :: twoDigits (second / 3600) ++ ':' :: twoDigits (second / 60 % 60) ++
    ':' :: twoDigits (second % 60 + leap) ++ fractionText (t.nanos % 1000000000) ++ ['Z']

def text (t : Timestamp) : String := String.ofList t.print

/-- Leading digits, at least one and at most `width` of them. -/
def readNumber? (width : Nat) (s : List Char) : Option (Nat × List Char) :=
  let digits := (s.take width).takeWhile Char.isDigit
  if digits = [] then none else some (Decimal.digitsValue digits, s.drop digits.length)

def readAllDigits? (s : List Char) : Option (Nat × List Char) := readNumber? s.length s

/-- A number after blanks. -/
def readPart? (s : List Char) : Option (Nat × List Char) := readNumber? 2 (Text.trimStart s)

/-- A separator after blanks. -/
def readMark? (mark : Char) (s : List Char) : Option (List Char) :=
  match Text.trimStart s with
  | c :: rest => if c = mark then some rest else none
  | [] => none

def readYear? (s : List Char) : Option (Int × List Char) :=
  match Text.trimStart s with
  | '-' :: rest => (readAllDigits? rest).map fun (n, rest) => (-(n : Int), rest)
  | '+' :: rest => (readAllDigits? rest).map fun (n, rest) => ((n : Int), rest)
  | s => (readNumber? 4 s).map fun (n, rest) => ((n : Int), rest)

/-- Nanoseconds after a point; digits beyond the ninth are dropped. -/
def readFraction? : List Char → Option (Nat × List Char)
  | '.' :: rest =>
    (readNumber? 9 rest).map fun (n, after) =>
      (n * tenTo (9 - (rest.length - after.length)), after.dropWhile Char.isDigit)
  | s => some (0, s)

/-- Two digits at the very start. -/
def readPair? : List Char → Option (Nat × List Char)
  | a :: b :: rest =>
    if a.isDigit ∧ b.isDigit then some (Decimal.digitsValue [a, b], rest) else none
  | _ => none

/-- The seconds that an offset is ahead of universal time. -/
def readOffset? (s : List Char) : Option (Int × List Char) :=
  if s.take 3 |>.map Char.toUpper |> (· == "UTC".toList) then some (0, s.drop 3)
  else
    match s with
    | [] => none
    | c :: rest =>
      if c = 'Z' ∨ c = 'z' then some (0, rest)
      else if c = '+' ∨ c = '-' ∨ c = '\u2212' then do
        let (hours, rest) ← readPair? rest
        let (minutes, rest) ← readPair? (rest.dropWhile fun c => c = ':' || Text.isBlank c)
        if 60 ≤ minutes ∨ 24 ≤ hours then none
        else
          let seconds : Int := hours * 3600 + minutes * 60
          some (if c = '+' then seconds else -seconds, rest)
      else none

def firstYear : Int := -262143

def lastYear : Int := 262142

def yearInRange (year : Int) : Bool := firstYear ≤ year && year ≤ lastYear

/-- The moment at which clocks at that offset show that time. -/
def ofClock? (date : Time.Date) (hour minute second nanos : Nat) (offset : Int) :
    Option Timestamp :=
  if date.Valid ∧ yearInRange date.year ∧ hour < 24 ∧ minute < 60 ∧ second ≤ 60 then
    let counted := min second 59
    let seconds := date.dayNumber * 86400 + (hour * 3600 + minute * 60 + counted : Nat) - offset
    if yearInRange (Time.Date.ofDayNumber (seconds / 86400)).year then
      some ⟨seconds, nanos + if second = 60 then 1000000000 else 0⟩
    else none
  else none

/-- Reads a whole text as a time. -/
def read? (s : List Char) : Option Timestamp := do
  let (year, s) ← readYear? s
  let s ← readMark? '-' s
  let (month, s) ← readPart? s
  let s ← readMark? '-' s
  let (day, s) ← readPart? s
  let s ← match s with
    | c :: rest => if c = 'T' ∨ c = 't' ∨ c = ' ' then some rest else none
    | [] => none
  let (hour, s) ← readPart? s
  let s ← readMark? ':' s
  let (minute, s) ← readPart? s
  let s ← readMark? ':' s
  let (second, s) ← readPart? s
  let (nanos, s) ← readFraction? s
  let (offset, s) ← readOffset? (Text.trimStart s)
  if Text.trimStart s = [] then ofClock? ⟨year, month, day⟩ hour minute second nanos offset
  else none

end Timestamp
end Matchmaking
