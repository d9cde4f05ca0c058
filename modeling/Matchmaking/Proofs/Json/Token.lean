import Matchmaking.Json.Quoted
import Matchmaking.Json.Numeral
import Mathlib.Data.Nat.Digits.Defs
/-! Tokens of JSON as they may be written: numbers with whole digits, a fraction and an exponent,
and strings with plain characters and escapes. `Spells` tells which texts write a token, without
regard to how tokens are read; the main statements are that the readers find each token again,
whatever follows it that cannot belong to it. -/
namespace Matchmaking

namespace Numeral

def Ends (rest : List Char) : Prop :=
  ∀ c, rest.head? = some c → ¬c.isDigit ∧ c ≠ '.' ∧ c ≠ 'e' ∧ c ≠ 'E'

inductive SpellsExponent : Option Int → List Char → Prop
  | absent : SpellsExponent none []
  | upward {mark : Char} {sign digits : List Char} (marked : mark = 'e' ∨ mark = 'E')
      (unsigned : sign = [] ∨ sign = ['+']) (some : digits ≠ [])
      (all : ∀ c ∈ digits, c.isDigit) :
      SpellsExponent (.some (Decimal.digitsValue digits)) (mark :: (sign ++ digits))
  | downward {mark : Char} {digits : List Char} (marked : mark = 'e' ∨ mark = 'E')
      (some : digits ≠ []) (all : ∀ c ∈ digits, c.isDigit) :
      SpellsExponent (.some (-Decimal.digitsValue digits)) (mark :: '-' :: digits)

/-- The text of a number token: its whole part in digits without a zero in front, its fraction
digit by digit, its exponent in any spelling. -/
structure Spells (n : Numeral) (s : List Char) : Prop where
  digits : ∀ c ∈ n.fraction, c.isDigit
  shape : ∃ exponent, SpellsExponent n.exponent exponent ∧
    s = (if n.negative then ['-'] else []) ++ (Nat.toDigits 10 n.whole ++
      ((if n.fraction = [] then [] else '.' :: n.fraction) ++ exponent))

section Reading

variable {s rest digits : List Char}

theorem head?_ne_digit (h : Ends rest) : ∀ c, rest.head? = some c → c.isDigit = false :=
  fun c starts => by simpa using (h c starts).1

theorem takeWhile_of_stops (stops : ∀ c, rest.head? = some c → c.isDigit = false) :
    rest.takeWhile Char.isDigit = [] := by
  cases rest with
  | nil => rfl
  | cons c rest => simp [stops c rfl]

theorem dropWhile_of_stops (stops : ∀ c, rest.head? = some c → c.isDigit = false) :
    rest.dropWhile Char.isDigit = rest := by
  cases rest with
  | nil => rfl
  | cons c rest => simp [stops c rfl]

theorem takeWhile_digits (all : ∀ c ∈ digits, c.isDigit)
    (stops : ∀ c, rest.head? = some c → c.isDigit = false) :
    (digits ++ rest).takeWhile Char.isDigit = digits := by
  rw [List.takeWhile_append_of_pos all, takeWhile_of_stops stops, List.append_nil]

theorem dropWhile_digits (all : ∀ c ∈ digits, c.isDigit)
    (stops : ∀ c, rest.head? = some c → c.isDigit = false) :
    (digits ++ rest).dropWhile Char.isDigit = rest := by
  rw [List.dropWhile_append_of_pos all, dropWhile_of_stops stops]

theorem isDigit_toDigits (n : Nat) : ∀ c ∈ Nat.toDigits 10 n, c.isDigit :=
  fun _ mem => Nat.isDigit_of_mem_toDigits (by decide) (by decide) mem

@[simp] theorem digitsValue_toDigits (n : Nat) : Decimal.digitsValue (Nat.toDigits 10 n) = n :=
  Nat.ofDigitChars_ten_toDigits

theorem head?_toDigits_append (n : Nat) (rest : List Char) :
    (Nat.toDigits 10 n ++ rest).head? = (Nat.toDigits 10 n).head? := by
  obtain ⟨c, digits, same⟩ := List.exists_cons_of_ne_nil (Nat.toDigits_ne_nil (n := n) (b := 10))
  simp [same]

theorem head?_toDigits {n : Nat} (pos : 0 < n) : (Nat.toDigits 10 n).head? ≠ some '0' := by
  induction n using Nat.strong_induction_on with
  | _ n ih =>
    by_cases small : n < 10
    · have single : ∀ n < 10, 0 < n → [Nat.digitChar n].head? ≠ some '0' := by decide
      rw [Nat.toDigits_of_lt_base small]
      exact single n small pos
    · rw [Nat.toDigits_of_base_le (by decide) (by omega), head?_toDigits_append]
      exact ih (n / 10) (by omega) (by omega)

theorem readWhole?_of_head_ne (h : s.head? ≠ some '0') :
    readWhole? s = if s.takeWhile Char.isDigit = [] then none
      else some (Decimal.digitsValue (s.takeWhile Char.isDigit), s.dropWhile Char.isDigit) := by
  unfold readWhole?
  split
  · simp at h
  · rfl

theorem readWhole?_toDigits (n : Nat) (stops : ∀ c, rest.head? = some c → c.isDigit = false) :
    readWhole? (Nat.toDigits 10 n ++ rest) = some (n, rest) := by
  by_cases zero : n = 0
  · subst zero
    have stop : rest.head?.any Char.isDigit = false := by
      cases rest with
      | nil => rfl
      | cons c rest => simp [stops c rfl]
    simp [readWhole?, stop]
  · have first : (Nat.toDigits 10 n ++ rest).head? ≠ some '0' := by
      rw [head?_toDigits_append]
      exact head?_toDigits (by omega)
    rw [readWhole?_of_head_ne first, takeWhile_digits (isDigit_toDigits n) stops,
      dropWhile_digits (isDigit_toDigits n) stops]
    simp [Nat.toDigits_ne_nil]

theorem readFraction?_point (some_ : digits ≠ []) (all : ∀ c ∈ digits, c.isDigit)
    (stops : ∀ c, rest.head? = some c → c.isDigit = false) :
    readFraction? ('.' :: (digits ++ rest)) = some (digits, rest) := by
  simp [readFraction?, takeWhile_digits all stops, dropWhile_digits all stops, some_]

theorem readFraction?_of_head_ne (h : s.head? ≠ some '.') : readFraction? s = some ([], s) := by
  unfold readFraction?
  split
  · simp at h
  · rfl

theorem readExponent?_of_ends (ends : Ends rest) : readExponent? rest = some (none, rest) := by
  cases rest with
  | nil => rfl
  | cons c rest =>
    obtain ⟨-, -, lower, upper⟩ := ends c rfl
    simp [readExponent?, lower, upper]

theorem splitSign_digits (some_ : digits ≠ []) (all : ∀ c ∈ digits, c.isDigit) :
    Decimal.splitSign (digits ++ rest) = (false, digits ++ rest) := by
  obtain ⟨c, digits, rfl⟩ := List.exists_cons_of_ne_nil some_
  have digit := all c List.mem_cons_self
  unfold Decimal.splitSign
  split
  · next h =>
    obtain ⟨rfl, -⟩ := by simpa using h
    exact absurd digit (by decide)
  · next h =>
    obtain ⟨rfl, -⟩ := by simpa using h
    exact absurd digit (by decide)
  · rfl

theorem readExponent?_of_spells {exponent : Option Int} (h : SpellsExponent exponent s)
    (ends : Ends rest) : readExponent? (s ++ rest) = some (exponent, rest) := by
  have stops := head?_ne_digit ends
  cases h with
  | absent => exact readExponent?_of_ends ends
  | @upward mark sign digits marked unsigned some_ all =>
    have split : Decimal.splitSign (sign ++ (digits ++ rest)) = (false, digits ++ rest) := by
      rcases unsigned with rfl | rfl
      · simpa using splitSign_digits some_ all
      · rfl
    simp [readExponent?, marked, split, takeWhile_digits all stops, dropWhile_digits all stops,
      some_]
  | downward marked some_ all =>
    simp [readExponent?, marked, Decimal.splitSign, takeWhile_digits all stops,
      dropWhile_digits all stops, some_]

theorem stops_of_spells {exponent : Option Int} (h : SpellsExponent exponent s)
    (ends : Ends rest) (fraction : List Char) :
    ∀ c, ((if fraction = [] then [] else '.' :: fraction) ++ (s ++ rest)).head? = some c →
      c.isDigit = false := by
  intro c starts
  by_cases absent : fraction = []
  · cases h with
    | absent => exact head?_ne_digit ends c (by simpa [absent] using starts)
    | upward marked | downward marked =>
      simp only [absent, if_true, List.nil_append, List.cons_append, List.head?_cons,
        Option.some.injEq] at starts
      rcases marked with rfl | rfl <;> subst starts <;> decide
  · obtain rfl : '.' = c := by simpa [absent] using starts
    decide

theorem head?_ne_point {exponent : Option Int} (h : SpellsExponent exponent s)
    (ends : Ends rest) : (s ++ rest).head? ≠ some '.' := by
  cases h with
  | absent => exact fun starts => (ends '.' starts).2.1 rfl
  | upward marked | downward marked => rcases marked with rfl | rfl <;> simp

theorem exists_toDigits_append (n : Nat) (rest : List Char) :
    ∃ c tail, Nat.toDigits 10 n ++ rest = c :: tail ∧ c.isDigit := by
  obtain ⟨c, digits, same⟩ := List.exists_cons_of_ne_nil (Nat.toDigits_ne_nil (n := n) (b := 10))
  exact ⟨c, digits ++ rest, by simp [same], isDigit_toDigits n c (by simp [same])⟩

theorem Spells.exists_start {n : Numeral} (h : n.Spells s) :
    ∃ c tail, s = c :: tail ∧ (c = '-' ∨ c.isDigit) := by
  obtain ⟨-, exponent, -, rfl⟩ := h
  cases n.negative with
  | true => exact ⟨'-', _, rfl, .inl rfl⟩
  | false =>
    obtain ⟨c, tail, same, digit⟩ := exists_toDigits_append n.whole
      ((if n.fraction = [] then [] else '.' :: n.fraction) ++ exponent)
    exact ⟨c, tail, same, .inr digit⟩

/-- A number token is read as it is written. -/
theorem read?_of_spells {n : Numeral} (h : n.Spells s) (ends : Ends rest) :
    read? (s ++ rest) = some (n, rest) := by
  obtain ⟨digits, exponent, spells, rfl⟩ := h
  obtain ⟨negative, whole, fraction, power⟩ := n
  have wholeStops := stops_of_spells spells ends fraction
  have pointStops : ∀ c, (exponent ++ rest).head? = some c → c.isDigit = false := by
    simpa using stops_of_spells spells ends []
  have whole_ := readWhole?_toDigits whole wholeStops
  have fraction_ : readFraction? ((if fraction = [] then [] else '.' :: fraction) ++
      (exponent ++ rest)) = some (fraction, exponent ++ rest) := by
    by_cases absent : fraction = []
    · simp [absent, readFraction?_of_head_ne (head?_ne_point spells ends)]
    · simp [absent, readFraction?_point absent digits pointStops]
  have exponent_ := readExponent?_of_spells spells ends
  cases negative with
  | true => simp [read?, whole_, fraction_, exponent_]
  | false =>
    obtain ⟨c, tail, same, digit⟩ := exists_toDigits_append whole
      ((if fraction = [] then [] else '.' :: fraction) ++ (exponent ++ rest))
    have unsigned : c ≠ '-' := by rintro rfl; exact absurd digit (by decide)
    rw [same] at whole_
    simp [read?, same, unsigned, whole_, fraction_, exponent_]

end Reading

section Writing

theorem spellsExponent_exponentText (e : Int) : SpellsExponent (some e) (exponentText e) := by
  have some_ : Nat.toDigits 10 e.natAbs ≠ [] := Nat.toDigits_ne_nil
  unfold exponentText
  by_cases down : e < 0
  · have downward := SpellsExponent.downward (.inl rfl) some_ (isDigit_toDigits e.natAbs)
    rw [digitsValue_toDigits, show -(e.natAbs : Int) = e by omega] at downward
    simpa [down] using downward
  · have upward := SpellsExponent.upward (.inl rfl) (.inl rfl) some_ (isDigit_toDigits e.natAbs)
    rw [digitsValue_toDigits, show (e.natAbs : Int) = e by omega] at upward
    simpa [down] using upward

theorem spells_print {n : Numeral} (digits : ∀ c ∈ n.fraction, c.isDigit) : n.Spells n.print := by
  refine ⟨digits, (n.exponent.map exponentText).getD [], ?_, by simp [print]⟩
  cases n.exponent with
  | none => exact .absent
  | some e => exact spellsExponent_exponentText e

end Writing

end Numeral

namespace Json
namespace Quoted

def IsHexDigit (c : Char) (n : Nat) : Prop :=
  n < 16 ∧ (c = Nat.digitChar n ∨ c = (Nat.digitChar n).toUpper)

/-- How a piece is written between the quotes. -/
inductive Piece.Spells : Piece → List Char → Prop
  | plain {c : Char} (quote : c ≠ '"') (slash : c ≠ '\\') (printable : 32 ≤ c.toNat) :
      Spells (.char c) [c]
  | short {e c : Char} (known : (e, c) ∈ readEscapes) : Spells (.char c) ['\\', e]
  | unit {a b c d : Char} {w x y z : Nat} (ha : IsHexDigit a w) (hb : IsHexDigit b x)
      (hc : IsHexDigit c y) (hd : IsHexDigit d z) :
      Spells (.unit (w * 4096 + x * 256 + y * 16 + z)) ['\\', 'u', a, b, c, d]

inductive SpellsAll : List Piece → List Char → Prop
  | nil : SpellsAll [] []
  | cons {p : Piece} {ps : List Piece} {s t : List Char} (first : p.Spells s)
      (rest : SpellsAll ps t) : SpellsAll (p :: ps) (s ++ t)

/-- The text that pieces stand for. A unit stands for the character of that number, and two units
for a character beyond sixteen bits. -/
inductive Denotes : List Piece → List Char → Prop
  | nil : Denotes [] []
  | char {ps : List Piece} {t : List Char} (c : Char) (rest : Denotes ps t) :
      Denotes (.char c :: ps) (c :: t)
  | unit {ps : List Piece} {t : List Char} {c : Char} (narrow : c.toNat < 0x10000)
      (rest : Denotes ps t) : Denotes (.unit c.toNat :: ps) (c :: t)
  | pair {ps : List Piece} {t : List Char} {c : Char} (wide : 0x10000 ≤ c.toNat)
      (rest : Denotes ps t) :
      Denotes (.unit (0xD800 + (c.toNat - 0x10000) / 1024) ::
        .unit (0xDC00 + (c.toNat - 0x10000) % 1024) :: ps) (c :: t)

/-- What may stand between the quotes of a token for that text. Without a text it is a token whose
escapes denote none. -/
def Spells (t : Option String) (s : List Char) : Prop :=
  ∃ pieces, SpellsAll pieces s ∧ ∀ text, Denotes pieces text ↔ t = some (String.ofList text)

section Reading

variable {s rest : List Char} {pieces : List Piece}

theorem hexValue?_digitChar : ∀ n < 16, hexValue? (Nat.digitChar n) = some n ∧
    hexValue? (Nat.digitChar n).toUpper = some n := by decide

theorem hexValue?_of_isHexDigit {c : Char} {n : Nat} (h : IsHexDigit c n) :
    hexValue? c = some n := by
  obtain ⟨bound, rfl | rfl⟩ := h
  · exact (hexValue?_digitChar n bound).1
  · exact (hexValue?_digitChar n bound).2

theorem lookup_of_mem_readEscapes : ∀ p ∈ readEscapes,
    readEscapes.lookup p.1 = some p.2 ∧ p.1 ≠ 'u' := by decide

theorem readPieces?_of_spells {p : Piece} (h : p.Spells s) :
    readPieces? (s ++ rest) = (readPieces? rest).map fun r => (p :: r.1, r.2) := by
  cases h with
  | @plain c quote slash printable =>
    have high : ¬c.toNat < 32 := by omega
    cases r : readPieces? rest <;> simp [readPieces?, slash, high, r]
  | short known =>
    obtain ⟨found, ne⟩ := lookup_of_mem_readEscapes _ known
    cases r : readPieces? rest <;> simp [readPieces?, found, ne, r]
  | unit ha hb hc hd =>
    cases r : readPieces? rest <;>
      simp [readPieces?, readUnit?, hexValue?_of_isHexDigit ha, hexValue?_of_isHexDigit hb,
        hexValue?_of_isHexDigit hc, hexValue?_of_isHexDigit hd, r]

theorem readPieces?_of_spellsAll (h : SpellsAll pieces s) :
    readPieces? (s ++ '"' :: rest) = some (pieces, rest) := by
  induction h with
  | nil => rfl
  | cons first _ ih => simp [readPieces?_of_spells first, ih]

def Piece.IsNarrow : Piece → Prop
  | .char _ => True
  | .unit n => n < 0x10000

theorem isNarrow_of_spellsAll (h : SpellsAll pieces s) : ∀ p ∈ pieces, p.IsNarrow := by
  induction h with
  | nil => simp
  | cons first _ ih =>
    refine List.forall_mem_cons.mpr ⟨?_, ih⟩
    cases first with
    | plain | short => exact trivial
    | unit ha hb hc hd =>
      have := ha.1
      have := hb.1
      have := hc.1
      have := hd.1
      simp only [Piece.IsNarrow]
      omega

theorem isValid (c : Char) : c.toNat < 0xD800 ∨ 0xDFFF < c.toNat ∧ c.toNat < 0x110000 := by
  have valid := c.valid
  simp only [UInt32.isValidChar, Nat.isValidChar] at valid
  exact valid

theorem assemble?_of_denotes {t : List Char} (h : Denotes pieces t) :
    assemble? pieces = some t := by
  induction h with
  | nil => rfl
  | char c _ ih => simp [assemble?, ih]
  | @unit ps t c narrow _ ih =>
    have valid := isValid c
    have high : isHigh c.toNat = false := by simp [isHigh]; omega
    have low : isLow c.toNat = false := by simp [isLow]; omega
    rw [assemble?.eq_def]
    simp [high, low, ih, Char.ofNat_toNat]
  | @pair ps t c wide _ ih =>
    have valid := isValid c
    have high : isHigh (0xD800 + (c.toNat - 0x10000) / 1024) = true := by simp [isHigh]; omega
    have low : isLow (0xDC00 + (c.toNat - 0x10000) % 1024) = true := by simp [isLow]; omega
    have whole : 0x10000 + (c.toNat - 0x10000) / 1024 * 1024 + (c.toNat - 0x10000) % 1024 =
        c.toNat := by omega
    simp [assemble?, high, low, whole, ih, Char.ofNat_toNat]

theorem toNat_ofNat {n : Nat} (h : n < 0xD800 ∨ 0xDFFF < n ∧ n < 0x110000) :
    (Char.ofNat n).toNat = n := by
  rw [Char.ofNat, dif_pos h]
  rfl

theorem denotes_of_assemble? {t : List Char} (narrow : ∀ p ∈ pieces, p.IsNarrow)
    (h : assemble? pieces = some t) : Denotes pieces t := by
  fun_induction assemble? pieces generalizing t with
  | case1 =>
    obtain rfl := Option.some.inj h
    exact .nil
  | case2 c rest ih =>
    obtain ⟨t, ht, rfl⟩ := Option.map_eq_some_iff.mp h
    exact .char c (ih (fun p mem => narrow p (by simp [mem])) ht)
  | case3 n high m rest low ih =>
    obtain ⟨t, ht, rfl⟩ := Option.map_eq_some_iff.mp h
    simp only [isHigh, isLow, Bool.and_eq_true, decide_eq_true_eq] at high low
    have valid := toNat_ofNat (n := 0x10000 + (n - 0xD800) * 1024 + (m - 0xDC00)) (by omega)
    have pair := Denotes.pair (c := Char.ofNat (0x10000 + (n - 0xD800) * 1024 + (m - 0xDC00)))
      (by omega) (ih (fun p mem => narrow p (by simp [mem])) ht)
    rw [valid, show 0xD800 + (0x10000 + (n - 0xD800) * 1024 + (m - 0xDC00) - 0x10000) / 1024 = n by
      omega, show 0xDC00 + (0x10000 + (n - 0xD800) * 1024 + (m - 0xDC00) - 0x10000) % 1024 = m by
      omega] at pair
    exact pair
  | case4 | case5 | case6 => cases h
  | case7 n rest high low ih =>
    obtain ⟨t, ht, rfl⟩ := Option.map_eq_some_iff.mp h
    have small : n < 0x10000 := narrow (.unit n) (by simp)
    simp only [isHigh, isLow, Bool.and_eq_true, decide_eq_true_eq, not_and, not_lt] at high low
    have valid := toNat_ofNat (n := n) (by omega)
    have unit := Denotes.unit (c := Char.ofNat n) (by omega)
      (ih (fun p mem => narrow p (by simp [mem])) ht)
    rwa [valid] at unit

/-- A string token is read as the text that it is written for. -/
theorem read?_of_spells {t : Option String} (h : Spells t s) :
    read? (s ++ '"' :: rest) = some (t, rest) := by
  obtain ⟨pieces, spelled, denotes⟩ := h
  have same : (assemble? pieces).map String.ofList = t := by
    cases assembled : assemble? pieces with
    | some text =>
      exact ((denotes text).mp
        (denotes_of_assemble? (isNarrow_of_spellsAll spelled) assembled)).symm
    | none =>
      cases t with
      | none => rfl
      | some u =>
        have denoted := assemble?_of_denotes ((denotes u.toList).mpr (by simp))
        simp [assembled] at denoted
  simp [read?, readPieces?_of_spellsAll spelled, same]

end Reading

section Writing

theorem mem_readEscapes : ∀ p ∈ shortEscapes, (p.2, p.1) ∈ readEscapes := by decide

theorem isHexDigit_digitChar {n : Nat} (h : n < 16) : IsHexDigit (Nat.digitChar n) n :=
  ⟨h, .inl rfl⟩

theorem spells_escapeChar (c : Char) : (pieceOf c).Spells (escapeChar c) := by
  unfold escapeChar pieceOf
  cases h : shortEscapes.lookup c with
  | some e =>
    obtain ⟨before, after, split, -⟩ := List.lookup_eq_some_iff.1 h
    simpa using Piece.Spells.short (mem_readEscapes (c, e) (by simp [split]))
  | none =>
    by_cases low : c.toNat < 32
    · have zero : IsHexDigit '0' 0 := isHexDigit_digitChar (by decide)
      have unit := Piece.Spells.unit zero zero
        (isHexDigit_digitChar (n := c.toNat / 16) (by omega))
        (isHexDigit_digitChar (n := c.toNat % 16) (by omega))
      rw [show 0 * 4096 + 0 * 256 + c.toNat / 16 * 16 + c.toNat % 16 = c.toNat by omega] at unit
      simpa [low] using unit
    · have quote : c ≠ '"' := by rintro rfl; simp [shortEscapes] at h
      have slash : c ≠ '\\' := by rintro rfl; revert h; decide
      simpa [low] using Piece.Spells.plain quote slash (by omega)

theorem denotes_map_pieceOf (s : List Char) : Denotes (s.map pieceOf) s := by
  induction s with
  | nil => exact .nil
  | cons c s ih =>
    rw [List.map_cons, pieceOf]
    split
    · next low => exact .unit (by simp at low; omega) ih
    · exact .char c ih

theorem spells_flatMap_escapeChar (s : List Char) :
    Spells (some (String.ofList s)) (s.flatMap escapeChar) := by
  refine ⟨s.map pieceOf, ?_, ?_⟩
  · induction s with
    | nil => exact .nil
    | cons c s ih => exact .cons (spells_escapeChar c) ih
  · intro text
    constructor
    · intro denotes
      have same := (assemble?_of_denotes denotes).symm.trans (assemble?_map_pieceOf s)
      rw [Option.some.inj same]
    · intro same
      rw [← String.ofList_injective (Option.some.inj same)]
      exact denotes_map_pieceOf s

theorem spells_unpaired : Spells none "\\ud800".toList := by
  have digit : IsHexDigit 'd' 13 := isHexDigit_digitChar (by decide)
  have eight : IsHexDigit '8' 8 := isHexDigit_digitChar (by decide)
  have zero : IsHexDigit '0' 0 := isHexDigit_digitChar (by decide)
  refine ⟨[.unit 0xD800], .cons (.unit digit eight zero zero) .nil, ?_⟩
  intro text
  refine ⟨?_, nofun⟩
  intro denotes
  exact absurd (assemble?_of_denotes denotes) (by simp [assemble?, isHigh])

end Writing

end Quoted
end Json
end Matchmaking
