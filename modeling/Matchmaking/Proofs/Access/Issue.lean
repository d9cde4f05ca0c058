import Matchmaking.Proofs.Access.Authenticity
import Matchmaking.Proofs.Access.Identity
import Matchmaking.Proofs.Record.RoundTrip
import Matchmaking.Proofs.Text.Utf8
/-! Tokens that are issued are accepted. Each part of an issued token is undone by its reader, so
what a check makes of the token depends on its code, its time and its user alone. -/
namespace Matchmaking

open Json (decodeText_of_spells read_of_spells spells_print)

theorem Base64Url.digit_mem_alphabet (n : Nat) : digit n ∈ alphabet := by
  rw [digit, List.getD_eq_getElem?_getD]
  cases found : alphabet[n]? with
  | none => decide
  | some c => exact List.mem_of_getElem? found

theorem Base64Url.mem_alphabet_of_mem_encode (bytes : List UInt8) :
    ∀ c ∈ encode bytes, c ∈ alphabet := by
  fun_induction encode bytes <;> simp_all [digit_mem_alphabet]

theorem Claims.ofObject_toJson {c : Claims} (fits : c.Fits) : fields.ofObject c.toJson = .ok c := by
  have whole : c.toJson.intact := by obtain ⟨user, _ | e⟩ := c <;> rfl
  exact ofJson_of_recasts fits c.recasts_self whole

namespace Token

variable {mac : Mac} {secret other : List UInt8} {claims : Claims} {now : Nat}

def signed (claims : Claims) : List Char := encodePart header ++ '.' :: encodePart claims.toJson

theorem headerIsSound_header : headerIsSound (encodePart header) := by decide +kernel

theorem claims?_encodePart (fits : claims.Fits) :
    claims? (encodePart claims.toJson) = some claims := by
  have parsed : Json.read? claims.toJson.print = some claims.toJson := by
    rw [Json.read?, read_of_spells (spells_print _ (claims.isWritten_toJson))]
    rfl
  have registered : registeredFields.ofObject claims.toJson = .ok () := by
    obtain ⟨user, _ | e⟩ := claims <;> rfl
  simp [claims?, encodePart, parsed, Claims.ofObject_toJson fits, registered, Except.toOption]

theorem not_dot_of_mem_encode {bytes : List UInt8} : '.' ∉ Base64Url.encode bytes := fun mem =>
  absurd (Base64Url.mem_alphabet_of_mem_encode bytes '.' mem) (by decide)

theorem check_issue (fits : claims.Fits) :
    check mac other now (issue mac secret claims) =
      if mac secret (Text.utf8 (signed claims)) = mac other (Text.utf8 (signed claims)) ∧
          claims.isCurrent now ∧ claims.userId ≠ 0 then some claims.userId
      else none := by
  have parts : Text.splitAt '.' (issue mac secret claims) =
      [encodePart header, encodePart claims.toJson, signature mac secret (signed claims)] := by
    have plain (v : Json) : '.' ∉ encodePart v := not_dot_of_mem_encode
    have joined := splitAt_joined (plain header) (plain claims.toJson)
      (signature mac secret (signed claims))
    rwa [signature, Text.splitAt_of_not_mem not_dot_of_mem_encode] at joined
  have code : signature mac secret (signed claims) = signature mac other (signed claims) ↔
      mac secret (Text.utf8 (signed claims)) = mac other (Text.utf8 (signed claims)) :=
    ⟨Base64Url.encode_injective, congrArg Base64Url.encode⟩
  rw [check, parts]
  change (if headerIsSound (encodePart header) &&
    signature mac secret (signed claims) == signature mac other (signed claims) then _ else none) = _
  rw [headerIsSound_header, claims?_encodePart fits]
  by_cases same : mac secret (Text.utf8 (signed claims)) = mac other (Text.utf8 (signed claims)) <;>
    simp [code, same]

end Token

namespace Access

variable {mac : Token.Mac} {secret : List UInt8} {now : Nat} {headers : List Header}
  {value : String} {token before after : List Char}

def IsRun (s : List Char) : Prop := ∀ c ∈ s, c = ' ' ∨ c = '\t'

theorem isPlain_of_isRun (run : IsRun before) : ∀ c ∈ before, isPlain c := by
  intro c mem
  rcases run c mem with rfl | rfl <;> rfl

theorem isBlank_of_isRun (run : IsRun before) : ∀ c ∈ before, Text.isBlank c := by
  intro c mem
  rcases run c mem with rfl | rfl <;> rfl

structure IsWord (token : List Char) : Prop where
  visible : ∀ c ∈ token, isPlain c ∧ ¬Text.isBlank c
  nonempty : token ≠ []

theorem offers_of_isWord (word : IsWord token) (leading : IsRun before) (trailing : IsRun after) :
    Offers (scheme ++ (before ++ (token ++ after))) token where
  plain := by
    have plainScheme : scheme.all isPlain := by decide
    rw [List.all_eq_true] at plainScheme
    simp only [List.mem_append]
    rintro c (mem | mem | mem | mem)
    · exact plainScheme c mem
    · exact isPlain_of_isRun leading c mem
    · exact (word.visible c mem).1
    · exact isPlain_of_isRun trailing c mem
  spread := ⟨before, after, rfl, isBlank_of_isRun leading, isBlank_of_isRun trailing⟩
  trimmed := ⟨fun c starts => (word.visible c (List.mem_of_head? starts)).2,
    fun c ends => (word.visible c (List.mem_of_getLast? ends)).2⟩
  nonempty := word.nonempty

theorem isWord_issue (mac : Token.Mac) (secret : List UInt8) (claims : Claims) :
    IsWord (Token.issue mac secret claims) := by
  have known : Base64Url.alphabet.all fun c => isPlain c && !Text.isBlank c := by decide +kernel
  have part (bytes : List UInt8) : ∀ c ∈ Base64Url.encode bytes, isPlain c ∧ ¬Text.isBlank c := by
    intro c mem
    simpa using List.all_eq_true.mp known c (Base64Url.mem_alphabet_of_mem_encode bytes c mem)
  have dot : isPlain '.' ∧ ¬Text.isBlank '.' := by decide
  refine ⟨?_, by simp [Token.issue]⟩
  simp only [Token.issue, Token.encodePart, Token.signature, List.mem_append, List.mem_cons]
  rintro c ((mem | rfl | mem) | rfl | mem)
  · exact part _ c mem
  · exact dot
  · exact part _ c mem
  · exact dot
  · exact part _ c mem

theorem caller?_eq_check (first : IsFirst headerName value headers)
    (offers : Offers value.toList token) : caller? mac secret now headers =
      Token.check mac secret now token := by
  simp [caller?, header?_eq_some_iff.mpr first, tokenIn?_eq_some_iff.mpr offers]

/-- A header with a token that was issued with the secret of the service is taken by `caller?` for
the user it was issued for, as long as the token holds. A token for user zero, or with a code that
the service does not make of it, is refused. -/
theorem caller?_of_issued (mac : Token.Mac) (secret : List UInt8) (now : Nat) {claims : Claims}
    (fits : claims.Fits) {headers : List Header} {value : String}
    {before after : List Char} (leading : IsRun before) (trailing : IsRun after)
    (first : IsFirst headerName value headers)
    (written : value.toList = scheme ++ (before ++ (Token.issue mac secret claims ++ after))) :
    (1 ≤ claims.userId → (∀ e, claims.expires = some e → now ≤ e + 60) →
      caller? mac secret now headers = some claims.userId) ∧
    (claims.userId = 0 → caller? mac secret now headers = none) ∧
    ∀ other, mac other (Text.utf8 (Token.signed claims)) ≠
        mac secret (Text.utf8 (Token.signed claims)) →
      caller? mac other now headers = none := by
  have offers := offers_of_isWord (isWord_issue mac secret claims) leading trailing
  rw [← written] at offers
  have checked (other : List UInt8) : caller? mac other now headers =
      if mac secret (Text.utf8 (Token.signed claims)) = mac other (Text.utf8 (Token.signed claims)) ∧
          claims.isCurrent now ∧ claims.userId ≠ 0 then some claims.userId
      else none :=
    (caller?_eq_check first offers).trans (Token.check_issue fits)
  refine ⟨fun user current => ?_, fun nobody => ?_, fun other differs => ?_⟩
  · have holds : claims.isCurrent now := by
      cases expires : claims.expires with
      | none => simp [Claims.isCurrent, expires]
      | some e =>
        have inTime : now ≤ e + Claims.leeway := current e expires
        simp [Claims.isCurrent, expires, inTime]
    have named : claims.userId ≠ 0 := Nat.one_le_iff_ne_zero.mp user
    simp [checked, holds, named]
  · simp [checked, nobody]
  · rw [checked, if_neg fun same => differs same.1.symm]

/-- A token of user 42 between a tab and a space, sixty seconds after it has expired; a token for
user zero; and the first one at a service with another secret. -/
theorem caller?_of_issued_specimen :
    let claims : Claims := ⟨42, some 1000⟩
    let secret := Text.utf8 "test-secret".toList
    let value (claims : Claims) := String.ofList
      (scheme ++ (['\t'] ++ (Token.issue Digest.hmacSha256 secret claims ++ [' '])))
    let headers (claims : Claims) := [("Accept", "*/*"), ("Authorization", value claims)]
    caller? Digest.hmacSha256 secret 1060 (headers claims) = some 42 ∧
      caller? Digest.hmacSha256 secret 1060 (headers ⟨0, none⟩) = none ∧
      caller? Digest.hmacSha256 (Text.utf8 "other".toList) 1060 (headers claims) = none := by
  intro claims secret value headers
  have fits : claims.Fits := ⟨by decide, by simp [claims, twoTo]⟩
  have nobody : Claims.Fits ⟨0, none⟩ := ⟨by decide, by simp⟩
  have first (claims : Claims) : IsFirst headerName (value claims) (headers claims) :=
    ⟨[("Accept", "*/*")], "Authorization", [], rfl, by decide +kernel, by decide +kernel⟩
  have tab : IsRun ['\t'] := by simp [IsRun]
  have space : IsRun [' '] := by simp [IsRun]
  have written (claims : Claims) : (value claims).toList = _ := String.toList_ofList
  obtain ⟨accepted, -, refused⟩ := caller?_of_issued Digest.hmacSha256 secret 1060 fits tab space
    (first claims) (written claims)
  obtain ⟨-, unnamed, -⟩ := caller?_of_issued Digest.hmacSha256 secret 1060 nobody tab space
    (first ⟨0, none⟩) (written ⟨0, none⟩)
  refine ⟨accepted (by decide) (by simp [claims]), unnamed rfl, refused _ ?_⟩
  decide +kernel

end Access
end Matchmaking
