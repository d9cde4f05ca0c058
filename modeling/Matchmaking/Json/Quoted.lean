/-! String tokens of JSON. Writing escapes the quote, the backslash and the control characters.
Reading takes every escape; a token whose `\u` escapes hold half of a surrogate pair is well formed
and denotes no text. -/
namespace Matchmaking
namespace Json
namespace Quoted

/-- The two-character escapes that writing uses. -/
def shortEscapes : List (Char × Char) :=
  [('"', '"'), ('\\', '\\'), ('\x08', 'b'), ('\x0c', 'f'), ('\n', 'n'), ('\r', 'r'), ('\t', 't')]

def escapeChar (c : Char) : List Char :=
  match shortEscapes.lookup c with
  | some e => ['\\', e]
  | none =>
    if c.toNat < 32 then
      ['\\', 'u', '0', '0', Nat.digitChar (c.toNat / 16), Nat.digitChar (c.toNat % 16)]
    else [c]

/-- The token of a text, with its quotes. -/
def write (s : List Char) : List Char := '"' :: (s.flatMap escapeChar ++ ['"'])

/-- What stands between the quotes: characters and sixteen-bit units given by `\u`. -/
inductive Piece
  | char (c : Char)
  | unit (n : Nat)
  deriving DecidableEq, Repr

def hexValue? (c : Char) : Option Nat :=
  if c.isDigit then some (c.toNat - '0'.toNat)
  else if 'a' ≤ c ∧ c ≤ 'f' then some (c.toNat - 'a'.toNat + 10)
  else if 'A' ≤ c ∧ c ≤ 'F' then some (c.toNat - 'A'.toNat + 10)
  else none

/-- The characters that a backslash may precede when read. -/
def readEscapes : List (Char × Char) :=
  [('"', '"'), ('\\', '\\'), ('/', '/'), ('b', '\x08'), ('f', '\x0c'), ('n', '\n'), ('r', '\r'),
   ('t', '\t')]

def readUnit? (a b c d : Char) : Option Nat := do
  return (← hexValue? a) * 4096 + (← hexValue? b) * 256 + (← hexValue? c) * 16 + (← hexValue? d)

/-- The pieces up to the closing quote and what follows it. -/
def readPieces? : List Char → Option (List Piece × List Char)
  | [] => none
  | '"' :: rest => some ([], rest)
  | '\\' :: 'u' :: a :: b :: c :: d :: rest => do
    let n ← readUnit? a b c d
    let (pieces, rest) ← readPieces? rest
    return (.unit n :: pieces, rest)
  | '\\' :: e :: rest => do
    let c ← readEscapes.lookup e
    let (pieces, rest) ← readPieces? rest
    return (.char c :: pieces, rest)
  | c :: rest =>
    if c = '\\' ∨ c.toNat < 32 then none
    else do
      let (pieces, rest) ← readPieces? rest
      return (.char c :: pieces, rest)

def isHigh (n : Nat) : Bool := 0xD800 ≤ n && n < 0xDC00

def isLow (n : Nat) : Bool := 0xDC00 ≤ n && n < 0xE000

/-- The text that pieces denote: a high unit joins the low unit after it, and neither stands
alone. -/
def assemble? : List Piece → Option (List Char)
  | [] => some []
  | .char c :: rest => (assemble? rest).map (c :: ·)
  | .unit n :: rest =>
    if isHigh n then
      match rest with
      | .unit m :: rest =>
        if isLow m then
          (assemble? rest).map (Char.ofNat (0x10000 + (n - 0xD800) * 1024 + (m - 0xDC00)) :: ·)
        else none
      | _ => none
    else if isLow n then none
    else (assemble? rest).map (Char.ofNat n :: ·)

/-- Reads a token after its opening quote. The text is absent where the token denotes none. -/
def read? (s : List Char) : Option (Option String × List Char) :=
  (readPieces? s).map fun (pieces, rest) => ((assemble? pieces).map String.ofList, rest)

theorem readEscapes_of_shortEscapes {c e : Char} (h : shortEscapes.lookup c = some e) :
    readEscapes.lookup e = some c ∧ e ≠ 'u' := by
  have all : ∀ p ∈ shortEscapes, readEscapes.lookup p.2 = some p.1 ∧ p.2 ≠ 'u' := by decide
  obtain ⟨before, after, split, _⟩ := List.lookup_eq_some_iff.1 h
  exact all (c, e) (split ▸ List.mem_append_right before List.mem_cons_self)

theorem readUnit?_control : ∀ n < 32,
    readUnit? '0' '0' (Nat.digitChar (n / 16)) (Nat.digitChar (n % 16)) = some n := by decide

/-- The piece that reading finds for a written character. -/
def pieceOf (c : Char) : Piece :=
  if (shortEscapes.lookup c).isNone && c.toNat < 32 then .unit c.toNat else .char c

theorem readPieces?_escapeChar (c : Char) (rest : List Char) :
    readPieces? (escapeChar c ++ rest) =
      (readPieces? rest).map fun p => (pieceOf c :: p.1, p.2) := by
  unfold escapeChar pieceOf
  cases h : shortEscapes.lookup c with
  | some e =>
    obtain ⟨back, ne⟩ := readEscapes_of_shortEscapes h
    cases r : readPieces? rest <;> simp [readPieces?, back, ne, r]
  | none =>
    by_cases low : c.toNat < 32
    · cases r : readPieces? rest <;> simp [readPieces?, readUnit?_control, low, r]
    · have quote : c ≠ '"' := by rintro rfl; simp [shortEscapes] at h
      have slash : c ≠ '\\' := by rintro rfl; revert h; decide
      cases r : readPieces? rest <;> simp [readPieces?, low, slash, r]

theorem assemble?_pieceOf (c : Char) (ps : List Piece) :
    assemble? (pieceOf c :: ps) = (assemble? ps).map (c :: ·) := by
  unfold pieceOf
  split
  · next h =>
    have low : c.toNat < 32 := by simpa using (Bool.and_eq_true_iff.1 h).2
    have high : isHigh c.toNat = false := by simp [isHigh]; omega
    have low' : isLow c.toNat = false := by simp [isLow]; omega
    rw [assemble?.eq_def]; simp [high, low', Char.ofNat_toNat]
  · rfl

theorem readPieces?_write (s rest : List Char) :
    readPieces? (s.flatMap escapeChar ++ '"' :: rest) = some (s.map pieceOf, rest) := by
  induction s with
  | nil => rfl
  | cons c s ih => simp [readPieces?_escapeChar, ih]

theorem assemble?_map_pieceOf (s : List Char) : assemble? (s.map pieceOf) = some s := by
  induction s with
  | nil => rfl
  | cons c s ih => simp [assemble?_pieceOf, ih]

/-- A written token reads back, whatever follows it. -/
theorem read?_write (s rest : List Char) :
    read? (s.flatMap escapeChar ++ '"' :: rest) = some (some (String.ofList s), rest) := by
  simp [read?, readPieces?_write, assemble?_map_pieceOf]

end Quoted
end Json
end Matchmaking
