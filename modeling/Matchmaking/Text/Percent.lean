import Matchmaking.Text.Utf8
/-! Percent-encoding: a byte as `%` and two capital hexadecimal digits. -/
namespace Matchmaking
namespace Text

/-- A capital hexadecimal digit. -/
def hexDigit (n : Nat) : Char := if n < 10 then Char.ofNat (48 + n) else Char.ofNat (55 + n)

def hexDigitValue? (c : Char) : Option Nat :=
  if c.isDigit then some (c.toNat - 48)
  else if 'A' ≤ c ∧ c ≤ 'F' then some (c.toNat - 55)
  else none

theorem hexDigitValue?_hexDigit : ∀ n < 16, hexDigitValue? (hexDigit n) = some n := by
  decide +kernel

def percent (b : UInt8) : List Char := ['%', hexDigit (b.toNat / 16), hexDigit (b.toNat % 16)]

/-- A text in which the characters of a class are written by their bytes. -/
def percentEncode (escaped : Char → Bool) (s : List Char) : List Char :=
  s.flatMap fun c => if escaped c then (utf8 [c]).flatMap percent else [c]

end Text
end Matchmaking
