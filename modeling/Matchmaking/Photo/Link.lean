import Matchmaking.Text.Percent
/-! Shareable links of stored photos: the base of the delivery network, one slash, and the key in
percent-encoding, where every byte that is not unreserved is written as `%` and two capital
hexadecimal digits. -/
namespace Matchmaking
namespace Photo

/-- Letters, digits, `-`, `_`, `.` and `~`. -/
def isUnreserved (b : UInt8) : Bool :=
  let c := Char.ofNat b.toNat
  c.isAlphanum || c = '-' || c = '_' || c = '.' || c = '~'

def encodeByte (b : UInt8) : List Char :=
  if isUnreserved b then [Char.ofNat b.toNat] else Text.percent b

def encodeBytes (bytes : List UInt8) : List Char := bytes.flatMap encodeByte

/-- The bytes of a text in percent-encoding, as written here: capital digits, and nothing but
unreserved characters beside the escapes. -/
def decodeBytes? : List Char → Option (List UInt8)
  | [] => some []
  | '%' :: a :: b :: rest => do
    let byte := UInt8.ofNat ((← Text.hexDigitValue? a) * 16 + (← Text.hexDigitValue? b))
    return byte :: (← decodeBytes? rest)
  | c :: rest =>
    if c.toNat < 128 ∧ isUnreserved (UInt8.ofNat c.toNat) then
      (decodeBytes? rest).map (UInt8.ofNat c.toNat :: ·)
    else none

theorem ofNat_of_isUnreserved : ∀ n < 256, isUnreserved (UInt8.ofNat n) = true →
    Char.ofNat n ≠ '%' ∧ (Char.ofNat n).toNat = n ∧ n < 128 := by decide +kernel

theorem decodeBytes?_percent (b : UInt8) (rest : List Char) :
    decodeBytes? (Text.percent b ++ rest) = (decodeBytes? rest).map (b :: ·) := by
  have := b.toNat_lt
  simp (disch := omega) only [Text.percent, List.cons_append, List.nil_append, decodeBytes?,
    Text.hexDigitValue?_hexDigit, Option.bind_eq_bind, Option.bind_some, Option.pure_def]
  rw [show b.toNat / 16 * 16 + b.toNat % 16 = b.toNat by omega, UInt8.ofNat_toNat]
  cases decodeBytes? rest <;> rfl

theorem decodeBytes?_encodeByte (b : UInt8) (rest : List Char) :
    decodeBytes? (encodeByte b ++ rest) = (decodeBytes? rest).map (b :: ·) := by
  unfold encodeByte
  split
  · next h =>
    have plain := ofNat_of_isUnreserved b.toNat b.toNat_lt
    rw [UInt8.ofNat_toNat] at plain
    obtain ⟨other, back, small⟩ := plain h
    rw [List.singleton_append, decodeBytes?]
    · simp [back, small, h]
    · exact fun _ _ _ e => absurd e other
  · exact decodeBytes?_percent b rest

/-- What is written reads back. -/
@[simp] theorem decodeBytes?_encodeBytes (bytes : List UInt8) :
    decodeBytes? (encodeBytes bytes) = some bytes := by
  induction bytes with
  | nil => rfl
  | cons b rest ih =>
    rw [encodeBytes, List.flatMap_cons, decodeBytes?_encodeByte]
    exact (congrArg _ ih).trans rfl

def encode (key : String) : List Char := encodeBytes (Text.utf8 key.toList)

/-- Different keys are written differently. -/
theorem encode_injective {x y : String} (h : encode x = encode y) : x = y := by
  have bytes : Text.utf8 x.toList = Text.utf8 y.toList := by
    simpa [encode] using congrArg decodeBytes? h
  exact String.toList_inj.1 (Text.utf8_injective bytes)

/-- A base without the slashes at its end. -/
def trimBase (base : String) : List Char := (base.toList.reverse.dropWhile (· == '/')).reverse

/-- The link of a photo; the empty key has none. -/
def link? (base key : String) : Option String :=
  if key = "" then none else some (String.ofList (trimBase base ++ '/' :: encode key))

end Photo
end Matchmaking
