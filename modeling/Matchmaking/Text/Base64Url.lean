/-! Bytes as text in the URL-safe alphabet of base 64, without padding. Reading refuses a length
that no bytes have and bits left over in the last character. -/
namespace Matchmaking
namespace Base64Url

def alphabet : List Char :=
  "ABCDEFGHIJKLMNOPQRSTUVWXYZabcdefghijklmnopqrstuvwxyz0123456789-_".toList

def digit (n : Nat) : Char := alphabet.getD n 'A'

def value? (c : Char) : Option Nat := alphabet.findIdx? (· == c)

theorem value?_digit : ∀ n < 64, value? (digit n) = some n := by decide +kernel

def encode : List UInt8 → List Char
  | a :: b :: c :: rest =>
    digit (a.toNat / 4) :: digit (a.toNat % 4 * 16 + b.toNat / 16) ::
      digit (b.toNat % 16 * 4 + c.toNat / 64) :: digit (c.toNat % 64) :: encode rest
  | [a, b] =>
    [digit (a.toNat / 4), digit (a.toNat % 4 * 16 + b.toNat / 16), digit (b.toNat % 16 * 4)]
  | [a] => [digit (a.toNat / 4), digit (a.toNat % 4 * 16)]
  | [] => []

/-- The bytes of three digits that are followed by no fourth one. -/
def decodeThree? (a b c : Nat) : Option (List UInt8) :=
  if c % 4 = 0 then some [UInt8.ofNat (a * 4 + b / 16), UInt8.ofNat (b % 16 * 16 + c / 4)]
  else none

def decodeTwo? (a b : Nat) : Option (List UInt8) :=
  if b % 16 = 0 then some [UInt8.ofNat (a * 4 + b / 16)] else none

def decode? : List Char → Option (List UInt8)
  | a :: b :: c :: d :: rest => do
    let a ← value? a
    let b ← value? b
    let c ← value? c
    let d ← value? d
    return UInt8.ofNat (a * 4 + b / 16) :: UInt8.ofNat (b % 16 * 16 + c / 4) ::
      UInt8.ofNat (c % 4 * 64 + d) :: (← decode? rest)
  | [a, b, c] => do decodeThree? (← value? a) (← value? b) (← value? c)
  | [a, b] => do decodeTwo? (← value? a) (← value? b)
  | [_] => none
  | [] => some []

theorem ofNat_eq {n : Nat} {b : UInt8} (h : n = b.toNat) : UInt8.ofNat n = b := by
  rw [h, UInt8.ofNat_toNat]

theorem decodeThree?_encode (a b : UInt8) :
    decodeThree? (a.toNat / 4) (a.toNat % 4 * 16 + b.toNat / 16) (b.toNat % 16 * 4) =
      some [a, b] := by
  have := a.toNat_lt
  have := b.toNat_lt
  rw [decodeThree?, if_pos (by omega), ofNat_eq (b := a) (by omega), ofNat_eq (b := b) (by omega)]

theorem decodeTwo?_encode (a : UInt8) :
    decodeTwo? (a.toNat / 4) (a.toNat % 4 * 16) = some [a] := by
  have := a.toNat_lt
  rw [decodeTwo?, if_pos (by omega), ofNat_eq (b := a) (by omega)]

/-- What is written reads back. -/
@[simp] theorem decode?_encode (bytes : List UInt8) : decode? (encode bytes) = some bytes := by
  fun_induction encode bytes with
  | case1 a b c rest ih =>
    have := a.toNat_lt
    have := b.toNat_lt
    have := c.toNat_lt
    simp (disch := omega) only [decode?, value?_digit, ih, Option.bind_eq_bind, Option.bind_some,
      Option.pure_def]
    rw [ofNat_eq (b := a) (by omega), ofNat_eq (b := b) (by omega), ofNat_eq (b := c) (by omega)]
  | case2 a b =>
    have := a.toNat_lt
    have := b.toNat_lt
    simp (disch := omega) only [decode?, value?_digit, Option.bind_eq_bind, Option.bind_some,
      decodeThree?_encode]
  | case3 a =>
    have := a.toNat_lt
    simp (disch := omega) only [decode?, value?_digit, Option.bind_eq_bind, Option.bind_some,
      decodeTwo?_encode]
  | case4 => rfl

/-- Different bytes are written differently. -/
theorem encode_injective {x y : List UInt8} (h : encode x = encode y) : x = y := by
  simpa using congrArg decode? h

theorem value?_eq_some {c : Char} {n : Nat} (h : value? c = some n) : n < 64 ∧ digit n = c := by
  obtain ⟨bound, found, -⟩ := List.findIdx?_eq_some_iff_getElem.mp h
  refine ⟨bound, ?_⟩
  rw [digit, List.getD_eq_getElem?_getD, List.getElem?_eq_getElem bound, Option.getD_some]
  simpa using found

theorem toNat_ofNat {n : Nat} (h : n < 256) : (UInt8.ofNat n).toNat = n :=
  UInt8.toNat_ofNat_of_lt' h

theorem encode_decodeThree? {a b c : Nat} {bytes : List UInt8} (ha : a < 64) (hb : b < 64)
    (hc : c < 64) (h : decodeThree? a b c = some bytes) :
    encode bytes = [digit a, digit b, digit c] := by
  obtain ⟨spare, ⟨⟩⟩ := Option.ite_none_right_eq_some.mp h
  have first : (a * 4 + b / 16) / 4 = a := by omega
  have second : (a * 4 + b / 16) % 4 * 16 + (b % 16 * 16 + c / 4) / 16 = b := by omega
  have third : (b % 16 * 16 + c / 4) % 16 * 4 = c := by omega
  rw [encode, toNat_ofNat (by omega), toNat_ofNat (by omega), first, second, third]

theorem encode_decodeTwo? {a b : Nat} {bytes : List UInt8} (ha : a < 64) (hb : b < 64)
    (h : decodeTwo? a b = some bytes) : encode bytes = [digit a, digit b] := by
  obtain ⟨spare, ⟨⟩⟩ := Option.ite_none_right_eq_some.mp h
  have first : (a * 4 + b / 16) / 4 = a := by omega
  have second : (a * 4 + b / 16) % 4 * 16 = b := by omega
  rw [encode, toNat_ofNat (by omega), first, second]

/-- Only what is written is read: no other text stands for the bytes. -/
theorem encode_of_decode? {s : List Char} {bytes : List UInt8} (h : decode? s = some bytes) :
    encode bytes = s := by
  fun_induction decode? s generalizing bytes with
  | case1 a b c d rest ih =>
    simp only [Option.bind_eq_bind, Option.bind_eq_some_iff, Option.pure_def,
      Option.some.injEq] at h
    obtain ⟨a, ha, b, hb, c, hc, d, hd, more, hmore, rfl⟩ := h
    obtain ⟨_, rfl⟩ := value?_eq_some ha
    obtain ⟨_, rfl⟩ := value?_eq_some hb
    obtain ⟨_, rfl⟩ := value?_eq_some hc
    obtain ⟨_, rfl⟩ := value?_eq_some hd
    have first : (a * 4 + b / 16) / 4 = a := by omega
    have second : (a * 4 + b / 16) % 4 * 16 + (b % 16 * 16 + c / 4) / 16 = b := by omega
    have third : (b % 16 * 16 + c / 4) % 16 * 4 + (c % 4 * 64 + d) / 64 = c := by omega
    have fourth : (c % 4 * 64 + d) % 64 = d := by omega
    rw [encode, ih hmore, toNat_ofNat (by omega), toNat_ofNat (by omega), toNat_ofNat (by omega),
      first, second, third, fourth]
  | case2 a b c =>
    simp only [Option.bind_eq_bind, Option.bind_eq_some_iff] at h
    obtain ⟨a, ha, b, hb, c, hc, h⟩ := h
    obtain ⟨boundA, rfl⟩ := value?_eq_some ha
    obtain ⟨boundB, rfl⟩ := value?_eq_some hb
    obtain ⟨boundC, rfl⟩ := value?_eq_some hc
    exact encode_decodeThree? boundA boundB boundC h
  | case3 a b =>
    simp only [Option.bind_eq_bind, Option.bind_eq_some_iff] at h
    obtain ⟨a, ha, b, hb, h⟩ := h
    obtain ⟨boundA, rfl⟩ := value?_eq_some ha
    obtain ⟨boundB, rfl⟩ := value?_eq_some hb
    exact encode_decodeTwo? boundA boundB h
  | case4 => simp at h
  | case5 =>
    obtain rfl := Option.some.inj h
    rfl

end Base64Url
end Matchmaking
