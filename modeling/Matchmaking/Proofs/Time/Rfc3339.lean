import Matchmaking.Time.Rfc3339
import Matchmaking.Proofs.Json.Token
import Matchmaking.Proofs.Time.Calendar
/-! Times of years of four digits are read back as they were written. Each part of the text is found
again by its reader in front of whatever follows it. -/
namespace Matchmaking
namespace Timestamp

/-- A moment of a year that four digits can tell, and of no leap second. -/
def IsUsual (t : Timestamp) : Prop :=
  let year := (Time.Date.ofDayNumber (t.seconds / 86400)).year
  (0 ≤ year ∧ year ≤ 9999) ∧ t.nanos < 1000000000

instance (t : Timestamp) : Decidable t.IsUsual := by unfold IsUsual; infer_instance

section

variable {digits rest : List Char} {width n : Nat}

theorem isBlank_of_isDigit {c : Char} (digit : c.isDigit) : Text.isBlank c = false := by
  simp only [Char.isDigit, Bool.and_eq_true, decide_eq_true_eq, UInt32.le_iff_toNat_le] at digit
  have bounds : 48 ≤ c.toNat ∧ c.toNat ≤ 57 := digit
  simp [Text.isBlank, Text.blankRanges]
  omega

theorem trimStart_digits (rest : List Char) (some_ : digits ≠ [])
    (all : ∀ c ∈ digits, c.isDigit) :
    Text.trimStart (digits ++ rest) = digits ++ rest := by
  obtain ⟨c, digits, rfl⟩ := List.exists_cons_of_ne_nil some_
  exact Text.trimStart_cons_of_not_isBlank _ (isBlank_of_isDigit (all c List.mem_cons_self))

theorem readNumber?_digits (rest : List Char) (some_ : digits ≠ [])
    (all : ∀ c ∈ digits, c.isDigit) (fits : digits.length ≤ width)
    (stops : digits.length = width ∨ ∀ c, rest.head? = some c → c.isDigit = false) :
    readNumber? width (digits ++ rest) = some (Decimal.digitsValue digits, rest) := by
  have taken : (digits ++ rest).take width = digits ++ rest.take (width - digits.length) := by
    rw [List.take_append, List.take_of_length_le fits]
  have stopped : ∀ c, (rest.take (width - digits.length)).head? = some c → c.isDigit = false := by
    intro c starts
    rcases stops with full | stops
    · simp [full] at starts
    · rw [List.head?_take] at starts
      split at starts
      · simp at starts
      · exact stops c starts
  have found : ((digits ++ rest).take width).takeWhile Char.isDigit = digits := by
    rw [taken, Numeral.takeWhile_digits all stopped]
  simp [readNumber?, found, some_]

theorem padded_ne_nil (width n : Nat) : padded width n ≠ [] := by
  simp [padded, Nat.toDigits_ne_nil]

theorem isDigit_padded (width n : Nat) : ∀ c ∈ padded width n, c.isDigit := by
  simp only [padded, List.mem_append, List.mem_replicate]
  rintro c (⟨-, rfl⟩ | mem)
  · decide
  · exact Numeral.isDigit_toDigits n c mem

theorem length_padded (pos : 0 < width) (small : n < 10 ^ width) :
    (padded width n).length = width := by
  have fits := (Nat.length_toDigits_le_iff (by decide) pos).mpr small
  simp [padded]
  omega

theorem digitsValue_padded (width n : Nat) : Decimal.digitsValue (padded width n) = n := by
  simp [padded, Decimal.digitsValue, Nat.ofDigitChars_append, Nat.ofDigitChars_replicate_zero,
    Nat.ofDigitChars_ten_toDigits]

theorem twoDigits_eq_padded (n : Nat) : twoDigits n = padded 2 n := by
  unfold twoDigits padded
  split
  · next single => simp [Nat.toDigits_of_lt_base single]
  · next several =>
    have least : ¬ (Nat.toDigits 10 n).length ≤ 1 := by
      rw [Nat.length_toDigits_le_iff (by decide) (by decide)]
      omega
    have full : 2 - (Nat.toDigits 10 n).length = 0 := by omega
    simp [full]

theorem readPart?_twoDigits (small : n < 100) :
    readPart? (twoDigits n ++ rest) = some (n, rest) := by
  have length : (padded 2 n).length = 2 := length_padded (by decide) small
  have some_ := padded_ne_nil 2 n
  have all := isDigit_padded 2 n
  rw [twoDigits_eq_padded, readPart?, trimStart_digits rest some_ all,
    readNumber?_digits rest some_ all length.le (.inl length), digitsValue_padded]

theorem readMark?_cons {c : Char} (visible : Text.isBlank c = false) :
    readMark? c (c :: rest) = some rest := by
  simp [readMark?, Text.trimStart_cons_of_not_isBlank _ visible]

theorem readFraction?_point {places scale nanos : Nat} (some_ : 0 < places) (fits : places ≤ 9)
    (small : nanos < 1000000000) (same : tenTo (9 - places) = scale)
    (whole : 10 ^ places * scale = 1000000000) (exact : nanos % scale = 0)
    (stops : ∀ c, rest.head? = some c → c.isDigit = false) :
    readFraction? ('.' :: (padded places (nanos / scale) ++ rest)) = some (nanos, rest) := by
  have bound : nanos / scale < 10 ^ places := by
    rw [Nat.div_lt_iff_lt_mul (same ▸ tenTo_pos _), whole]
    exact small
  have length := length_padded some_ bound
  have read := readNumber?_digits rest (padded_ne_nil places (nanos / scale)) (isDigit_padded _ _)
    (length.trans_le fits) (.inr stops)
  have left : 9 - ((padded places (nanos / scale) ++ rest).length - rest.length) = 9 - places := by
    simp [length]
  rw [readFraction?, read]
  simp only [Option.map_some, digitsValue_padded, left, same, Numeral.dropWhile_of_stops stops,
    Nat.div_mul_cancel (Nat.dvd_of_mod_eq_zero exact)]

theorem readFraction?_fractionText {nanos : Nat} (small : nanos < 1000000000)
    (stops : ∀ c, rest.head? = some c → c.isDigit = false ∧ c ≠ '.') :
    readFraction? (fractionText nanos ++ rest) = some (nanos, rest) := by
  have noDigit : ∀ c, rest.head? = some c → c.isDigit = false := fun c starts => (stops c starts).1
  fun_cases fractionText nanos with
  | case1 none =>
    rw [List.nil_append, none]
    fun_cases readFraction? rest with
    | case1 rest => exact absurd rfl (stops '.' rfl).2
    | case2 => rfl
  | case2 _ millis =>
    exact readFraction?_point (by decide) (by decide) small rfl rfl millis noDigit
  | case3 _ _ micros =>
    exact readFraction?_point (by decide) (by decide) small rfl rfl micros noDigit
  | case4 =>
    have all : readFraction? ('.' :: (padded 9 (nanos / 1) ++ rest)) = some (nanos, rest) :=
      readFraction?_point (by decide) (by decide) small rfl rfl (Nat.mod_one nanos) noDigit
    rwa [Nat.div_one] at all

theorem readYear?_yearText {year : Int} (usual : 0 ≤ year ∧ year ≤ 9999) :
    readYear? (yearText year ++ rest) = some (year, rest) := by
  have small : year.toNat < 10 ^ 4 := by omega
  have length := length_padded (by decide) small
  have trimmed := trimStart_digits rest (padded_ne_nil 4 _) (isDigit_padded 4 year.toNat)
  have read := readNumber?_digits rest (padded_ne_nil 4 _) (isDigit_padded 4 year.toNat) length.le
    (.inl length)
  obtain ⟨c, digits, same⟩ := List.exists_cons_of_ne_nil (padded_ne_nil 4 year.toNat)
  have digit := isDigit_padded 4 year.toNat c (by simp [same])
  have unsigned : c ≠ '-' ∧ c ≠ '+' := by
    constructor <;> rintro rfl <;> simp [Char.isDigit] at digit
  rw [digitsValue_padded] at read
  rw [yearText, if_pos usual, readYear?, trimmed]
  simp only [same, List.cons_append] at read ⊢
  split
  · next h => exact absurd (List.cons.inj h).1 unsigned.1
  · next h => exact absurd (List.cons.inj h).1 unsigned.2
  · simp [read, Int.toNat_of_nonneg usual.1]

end

theorem monthLength_le (year : Int) (month : Nat) : Time.monthLength year month ≤ 31 := by
  unfold Time.monthLength
  split_ifs <;> omega

theorem ofClock?_of_isUsual {t : Timestamp} (usual : t.IsUsual) :
    let second := (t.seconds % 86400).toNat
    ofClock? (Time.Date.ofDayNumber (t.seconds / 86400)) (second / 3600) (second / 60 % 60)
      (second % 60) t.nanos 0 = some t := by
  obtain ⟨inYears, inSecond⟩ := usual
  have valid := Time.Date.valid_ofDayNumber (t.seconds / 86400)
  have day := Time.Date.dayNumber_ofDayNumber (t.seconds / 86400)
  have inRange : yearInRange (Time.Date.ofDayNumber (t.seconds / 86400)).year := by
    simp only [yearInRange, Bool.and_eq_true, decide_eq_true_eq]
    simp only [firstYear, lastYear]
    omega
  intro second
  have told : (second : Int) = t.seconds % 86400 := Int.toNat_of_nonneg (by omega)
  clear_value second
  have seconds : t.seconds / 86400 * 86400 +
      (second / 3600 * 3600 + second / 60 % 60 * 60 + min (second % 60) 59 : Nat) - 0 = t.seconds := by
    omega
  have shown : second / 3600 < 24 ∧ second / 60 % 60 < 60 ∧ second % 60 ≤ 60 := by omega
  have noLeap : second % 60 ≠ 60 := by omega
  rw [ofClock?, if_pos ⟨valid, inRange, shown⟩, day]
  simp only [seconds, inRange, if_true, noLeap, if_false, Nat.add_zero]

/-- A usual time is read back from its text. -/
theorem read?_print {t : Timestamp} (usual : t.IsUsual) : read? t.print = some t := by
  have clock := ofClock?_of_isUsual usual
  obtain ⟨inYears, inSecond⟩ := usual
  obtain ⟨-, lastMonth, -, lastDay⟩ := Time.Date.valid_ofDayNumber (t.seconds / 86400)
  have bound : (t.seconds % 86400).toNat < 86400 := by omega
  simp only [print, inSecond, if_true, Nat.mod_eq_of_lt inSecond, List.append_assoc,
    List.cons_append, Nat.add_zero]
  generalize Time.Date.ofDayNumber (t.seconds / 86400) = date at *
  generalize (t.seconds % 86400).toNat = second at *
  have month : date.month < 100 := by omega
  have day : date.day < 100 := by
    have := monthLength_le date.year date.month
    omega
  have hour : second / 3600 < 100 := by omega
  have minute : second / 60 % 60 < 100 := by omega
  have counted : second % 60 < 100 := by omega
  have dash : Text.isBlank '-' = false := by decide
  have colon : Text.isBlank ':' = false := by decide
  have ends : ∀ c, ['Z'].head? = some c → c.isDigit = false ∧ c ≠ '.' := by simp [Char.isDigit]
  have fraction := readFraction?_fractionText inSecond ends
  simp only [read?, readYear?_yearText inYears, readMark?_cons dash, readMark?_cons colon,
    readPart?_twoDigits month, readPart?_twoDigits day, readPart?_twoDigits hour,
    readPart?_twoDigits minute, readPart?_twoDigits counted, fraction, bind, Option.bind]
  have universal : readOffset? (Text.trimStart ['Z']) = some (0, []) := by decide
  simp [universal, clock]

end Timestamp
end Matchmaking
