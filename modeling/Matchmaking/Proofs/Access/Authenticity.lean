import Matchmaking.Access.Token
import Matchmaking.Digest.Hmac
import Matchmaking.Proofs.Json.Fields
/-! What an accepted token is made of. Its parts are the texts of their bytes, its last part is the
code of what stands before it, and header and payload name the algorithm and the user once each. So
nothing in an accepted token can be written in another way: from its first two parts the rest
follows. Nothing is asked of the authentication code. -/
namespace Matchmaking

open Json (Record natBelow_eq_ok_iff nullable_eq_ok_iff named_eq_ok_iff)

namespace Claims

/-- The object makes these claims: its only `user_id` is the number of the user, and its only
`exp`, where it has one that is not null, is the second of expiry. -/
structure AreIn (c : Claims) (v : Json) : Prop where
  user : ∃ d, v.under ["user_id"] = [.number d] ∧ d.toNat? = some c.userId
  bounded : c.userId < Json.idBound
  expiry : match c.expires with
    | none => v.under ["exp"] = [] ∨ v.under ["exp"] = [.null]
    | some e => ∃ d, v.under ["exp"] = [.number d] ∧ d.toNat? = some e

theorem ofJson_of_ofObject {v : Json} {c : Claims} (h : fields.ofObject v = .ok c) :
    ofJson v = .ok c := by
  cases v with
  | array => exact absurd h nofun
  | _ => exact h

theorem areIn_of_ofObject {v : Json} {c : Claims} (h : fields.ofObject v = .ok c) : c.AreIn v := by
  obtain ⟨found, built, only⟩ := Record.exists_found_of_ofObject (by decide) h
  have users := only "user_id" [] (by decide)
  have exps := only "exp" [] (by decide)
  simp only [fields, Record.seq_build_iff, Record.map_build_iff, Record.needs_build_iff,
    Record.may_build_iff] at built
  obtain ⟨_, ⟨userId, ⟨id, hid, read⟩, rfl⟩, expires, expiry, rfl⟩ := built
  obtain ⟨d, rfl, whole, bounded⟩ := natBelow_eq_ok_iff.mp read
  rw [hid, Option.toList_some] at users
  refine ⟨⟨d, users.symm, whole⟩, bounded, ?_⟩
  rcases expiry with ⟨absent, rfl⟩ | ⟨e, he, read⟩
  · rw [absent] at exps
    exact .inl exps.symm
  · rw [he, Option.toList_some] at exps
    rcases nullable_eq_ok_iff.mp read with ⟨rfl, rfl⟩ | ⟨-, second, written, rfl⟩
    · exact .inr exps.symm
    · obtain ⟨d, rfl, whole, -⟩ := natBelow_eq_ok_iff.mp written
      exact ⟨d, exps.symm, whole⟩

end Claims

namespace Token

variable {mac : Mac} {secret : List UInt8} {now : Nat} {token : List Char} {user : UserId}

def Spells (text? : List UInt8 → Option (List Char)) (part : List Char) (v : Json) : Prop :=
  ∃ bytes text, part = Base64Url.encode bytes ∧ text? bytes = some text ∧
    Json.read? text = some v

/-- The only `alg` is the name of the algorithm, as a text or as the key of an empty choice. -/
def NamesAlgorithm (v : Json) : Prop :=
  v.under ["alg"] = [.text algorithm] ∨ v.under ["alg"] = [Json.ofFields [(algorithm, .null)]]

/-- How a token is made up that speaks for a user at some second. -/
structure IsAuthentic (mac : Mac) (secret : List UInt8) (now : Nat) (token : List Char)
    (user : UserId) (header payload code : List Char) : Prop where
  joined : token = header ++ '.' :: payload ++ '.' :: code
  undotted : ∀ part ∈ [header, payload, code], '.' ∉ part
  signed : code = Base64Url.encode (mac secret (Text.utf8 (header ++ '.' :: payload)))
  algorithm : ∃ v, Spells Text.ofUtf8? header v ∧ NamesAlgorithm v
  claims : ∃ v c, Spells (fun bytes => some (Text.ofUtf8Readable bytes)) payload v ∧
    Claims.ofJson v = .ok c ∧ c.AreIn v ∧ c.userId = user ∧ user ≠ 0 ∧
      ∀ e, c.expires = some e → now ≤ e + 60

theorem check_eq_some_iff :
    check mac secret now token = some user ↔
      ∃ header payload c,
        Text.splitAt '.' token =
            [header, payload, signature mac secret (header ++ '.' :: payload)] ∧
          headerIsSound header ∧ claims? payload = some c ∧ c.isCurrent now ∧ c.userId ≠ 0 ∧
            c.userId = user := by
  unfold check
  split
  · next header payload code parts =>
    constructor
    · intro h
      obtain ⟨checked, h⟩ := Option.ite_none_right_eq_some.mp h
      obtain ⟨c, claimed, h⟩ := Option.bind_eq_some_iff.mp h
      obtain ⟨valid, same⟩ := Option.ite_none_right_eq_some.mp h
      simp only [Bool.and_eq_true, beq_iff_eq, bne_iff_ne] at checked valid
      exact ⟨header, payload, c, by rw [parts, checked.2], checked.1, claimed, valid.1, valid.2,
        Option.some.inj same⟩
    · rintro ⟨_, _, c, same, sound, claimed, current, nonzero, rfl⟩
      rw [parts] at same
      obtain ⟨rfl, rfl, rfl⟩ := by simpa using same
      simp [sound, claimed, current, nonzero]
  · next other =>
    refine ⟨nofun, ?_⟩
    rintro ⟨header, payload, c, parts, -⟩
    exact absurd parts (other _ _ _)

theorem build_of_parameters {names : List String} {last : Record Unit} {found : Json.Found}
    (h : (names.foldr (fun name r => (fun _ _ => ()) <$>
      Record.may name (Json.nullable Json.string) none <*> r) last).build found = .ok ()) :
    last.build found = .ok () := by
  induction names with
  | nil => exact h
  | cons name names ih =>
    obtain ⟨_, -, _, rest, -⟩ := Record.seq_build_iff.mp h
    exact ih rest

theorem namesAlgorithm_of_ofObject {v : Json} (h : headerFields.ofObject v = .ok ()) :
    NamesAlgorithm v := by
  obtain ⟨found, built, only⟩ := Record.exists_found_of_ofObject (by decide) h
  obtain ⟨name, found, read⟩ := Record.needs_build_iff.mp (build_of_parameters built)
  have algs := only "alg" [] (by decide)
  rw [found, Option.toList_some] at algs
  obtain ⟨s, known, written⟩ := named_eq_ok_iff.mp read
  obtain ⟨rfl, -⟩ := Option.ite_none_right_eq_some.mp known
  rw [NamesAlgorithm, ← algs]
  simpa using written

theorem namesAlgorithm_of_headerIsSound {part : List Char} (h : headerIsSound part) :
    ∃ v, Spells Text.ofUtf8? part v ∧ NamesAlgorithm v := by
  obtain ⟨v, read, sound⟩ := (Option.any_eq_true _ _).mp h
  simp only [Option.bind_eq_bind, Option.bind_eq_some_iff] at read
  obtain ⟨text, ⟨bytes, decoded, utf8⟩, parsed⟩ := read
  refine ⟨v, ⟨bytes, text, (Base64Url.encode_of_decode? decoded).symm, utf8, parsed⟩, ?_⟩
  cases read : headerFields.ofObject v with
  | ok => exact namesAlgorithm_of_ofObject read
  | error e => simp [read, Except.isOk, Except.toBool] at sound

theorem toOption_eq_some_iff {α : Type} {x : Json.Decoded α} {a : α} :
    x.toOption = some a ↔ x = .ok a := by
  cases x <;> simp [Except.toOption]

theorem claims_of_claims? {part : List Char} {c : Claims} (h : claims? part = some c) :
    ∃ v, Spells (fun bytes => some (Text.ofUtf8Readable bytes)) part v ∧
      Claims.fields.ofObject v = .ok c := by
  unfold claims? at h
  simp only [Option.bind_eq_bind, Option.bind_eq_some_iff, Option.pure_def,
    toOption_eq_some_iff] at h
  obtain ⟨bytes, decoded, v, parsed, c, claimed, -, -, ⟨⟩⟩ := h
  exact ⟨v, ⟨bytes, _, (Base64Url.encode_of_decode? decoded).symm, rfl, parsed⟩, claimed⟩

/-- From the first two parts of an accepted token the third follows. -/
theorem splitAt_of_check (h : check mac secret now token = some user) :
    ∃ header payload,
      Text.splitAt '.' token =
        [header, payload, signature mac secret (header ++ '.' :: payload)] := by
  obtain ⟨header, payload, c, parts, -⟩ := check_eq_some_iff.mp h
  exact ⟨header, payload, parts⟩

theorem splitAt_joined {header payload : List Char} (plainHeader : '.' ∉ header)
    (plainPayload : '.' ∉ payload) (rest : List Char) :
    Text.splitAt '.' (header ++ '.' :: payload ++ '.' :: rest) =
      header :: payload :: Text.splitAt '.' rest := by
  rw [List.append_assoc, List.cons_append, Text.splitAt_append plainHeader,
    Text.splitAt_append plainPayload]

/-- An accepted token is authentic; so it is the only accepted text with its first two parts, and
with another signature it is accepted at no time. -/
theorem accepted_is_authentic (mac : Mac) (secret : List UInt8) {now : Nat} {token : List Char}
    {user : UserId} (accepted : check mac secret now token = some user) :
    ∃ header payload code, IsAuthentic mac secret now token user header payload code ∧
      (∀ later twin other, check mac secret later twin = some other →
        (Text.splitAt '.' twin).take 2 = [header, payload] → twin = token) ∧
      ∀ later forged, forged ≠ code →
        check mac secret later (header ++ '.' :: payload ++ '.' :: forged) = none := by
  obtain ⟨header, payload, c, parts, sound, claimed, current, nonzero, rfl⟩ :=
    check_eq_some_iff.mp accepted
  have undotted : ∀ part ∈ [header, payload, signature mac secret (header ++ '.' :: payload)],
      '.' ∉ part := by
    rw [← parts]
    exact fun part => Text.not_mem_of_mem_splitAt
  have plainHeader := undotted header (by simp)
  have plainPayload := undotted payload (by simp)
  have plainCode := undotted (signature mac secret (header ++ '.' :: payload)) (by simp)
  refine ⟨header, payload, signature mac secret (header ++ '.' :: payload), ?_, ?_, ?_⟩
  · obtain ⟨v, spelled, claims⟩ := claims_of_claims? claimed
    refine ⟨Text.splitAt_injective '.' ?_, undotted, rfl,
      namesAlgorithm_of_headerIsSound sound, v, c, spelled, Claims.ofJson_of_ofObject claims,
      Claims.areIn_of_ofObject claims, rfl, nonzero, ?_⟩
    · rw [parts, splitAt_joined plainHeader plainPayload, Text.splitAt_of_not_mem plainCode]
    · intro e expires
      rw [Claims.isCurrent, expires] at current
      exact of_decide_eq_true current
  · intro later twin other taken same
    obtain ⟨header', payload', parts'⟩ := splitAt_of_check taken
    rw [parts'] at same
    obtain ⟨rfl, rfl⟩ := by simpa using same
    exact Text.splitAt_injective '.' (parts'.trans parts.symm)
  · intro later forged other
    by_contra taken
    obtain ⟨u, taken⟩ := Option.ne_none_iff_exists'.mp taken
    obtain ⟨header', payload', parts'⟩ := splitAt_of_check taken
    rw [splitAt_joined plainHeader plainPayload] at parts'
    obtain ⟨rfl, rfl, last⟩ := by simpa using parts'
    exact other (Text.splitAt_injective '.' (last.trans (Text.splitAt_of_not_mem plainCode).symm))

def specimen : List Char :=
  ("eyJ0eXAiOiJKV1QiLCJhbGciOiJIUzI1NiJ9.eyJ1c2VyX2lkIjo0MiwiZXhwIjoxMDAwfQ." ++
    "cvkGLEi3UgO6xoy3R-3MpWIpSQlos_uwAfJtI20sdSQ").toList

theorem accepted_is_authentic_specimen :
    check Digest.hmacSha256 (Text.utf8 "test-secret".toList) 1060 specimen = some 42 ∧
      ∃ header payload code,
        IsAuthentic Digest.hmacSha256 (Text.utf8 "test-secret".toList) 1060 specimen 42 header
          payload code ∧
        ∀ later forged, forged ≠ code →
          check Digest.hmacSha256 (Text.utf8 "test-secret".toList) later
            (header ++ '.' :: payload ++ '.' :: forged) = none := by
  have accepted :
      check Digest.hmacSha256 (Text.utf8 "test-secret".toList) 1060 specimen = some 42 := by
    decide +kernel
  obtain ⟨header, payload, code, authentic, -, unforged⟩ := accepted_is_authentic _ _ accepted
  exact ⟨accepted, header, payload, code, authentic, unforged⟩

end Token
end Matchmaking
