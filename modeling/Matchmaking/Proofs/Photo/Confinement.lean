import Matchmaking.Store.Serve
import Mathlib.Data.List.DropRight
/-! Links of photos. A key becomes one segment after the base, out of which its bytes can be read
again; so keys do not share links, and none of them reaches beyond its segment. Slashes at the end
of the base make no difference. -/
namespace Matchmaking
namespace Photo

variable {base key key' : String} {root segment : List Char}

def unreserved : List Char :=
  "ABCDEFGHIJKLMNOPQRSTUVWXYZabcdefghijklmnopqrstuvwxyz0123456789-_.~".toList

def capitalDigits : List Char := "0123456789ABCDEF".toList

/-- Unreserved characters, and escapes of two capital digits each. -/
inductive IsSegment : List Char → Prop
  | nil : IsSegment []
  | plain {c : Char} {rest : List Char} (kept : c ∈ unreserved) (more : IsSegment rest) :
      IsSegment (c :: rest)
  | escape {a b : Char} {rest : List Char} (high : a ∈ capitalDigits) (low : b ∈ capitalDigits)
      (more : IsSegment rest) : IsSegment ('%' :: a :: b :: rest)

theorem mem_unreserved_of_isUnreserved : ∀ n < 256, isUnreserved (UInt8.ofNat n) = true →
    Char.ofNat n ∈ unreserved := by decide +kernel

theorem hexDigit_mem_capitalDigits : ∀ n < 16, Text.hexDigit n ∈ capitalDigits := by decide +kernel

theorem IsSegment.encodeByte_append (b : UInt8) (more : IsSegment segment) :
    IsSegment (encodeByte b ++ segment) := by
  have small := b.toNat_lt
  unfold encodeByte
  split
  · next plain =>
    refine .plain (mem_unreserved_of_isUnreserved b.toNat small ?_) more
    rwa [UInt8.ofNat_toNat]
  · refine .escape ?_ ?_ more
    · exact hexDigit_mem_capitalDigits _ (by omega)
    · exact hexDigit_mem_capitalDigits _ (by omega)

theorem isSegment_encodeBytes (bytes : List UInt8) : IsSegment (encodeBytes bytes) := by
  induction bytes with
  | nil => exact .nil
  | cons b rest ih => exact ih.encodeByte_append b

def delimiters : List Char := ['/', '?', '#']

theorem IsSegment.not_mem_delimiters (whole : IsSegment segment) :
    ∀ c ∈ segment, c ∉ delimiters := by
  have plain : ∀ c ∈ unreserved, c ∉ delimiters := by
    have kept : unreserved.all (· ∉ delimiters) := by decide +kernel
    simpa using kept
  have digit : ∀ c ∈ capitalDigits, c ∉ delimiters := by
    have kept : capitalDigits.all (· ∉ delimiters) := by decide +kernel
    simpa using kept
  induction whole with
  | nil => simp
  | plain kept _ ih => exact List.forall_mem_cons.mpr ⟨plain _ kept, ih⟩
  | escape high low _ ih =>
    simp only [List.forall_mem_cons]
    exact ⟨by decide, digit _ high, digit _ low, ih⟩

theorem encode_ne_nil (nonempty : key ≠ "") : encode key ≠ [] := fun empty =>
  nonempty (encode_injective (empty.trans rfl))

def slashes (n : Nat) : List Char := List.replicate n '/'

/-- The base is the root with slashes after it, and the root ends with none. -/
structure IsRoot (base : String) (root : List Char) : Prop where
  slashed : ∃ n, base.toList = root ++ slashes n
  bare : root.getLast? ≠ some '/'

theorem trimBase_eq (base : String) : trimBase base = base.toList.rdropWhile (· == '/') := rfl

theorem isRoot_trimBase (base : String) : IsRoot base (trimBase base) := by
  constructor
  · refine ⟨(base.toList.rtakeWhile (· == '/')).length, ?_⟩
    have all : ∀ c ∈ base.toList.rtakeWhile (· == '/'), c = '/' := fun c mem => by
      simpa using List.mem_rtakeWhile_imp mem
    rw [slashes, ← List.eq_replicate_iff.mpr ⟨rfl, all⟩, trimBase_eq,
      List.rdropWhile_append_rtakeWhile]
  · intro ends
    have nonempty : trimBase base ≠ [] := fun empty => by simp [empty] at ends
    have last := List.rdropWhile_last_not (· == '/') base.toList nonempty
    rw [List.getLast?_eq_some_getLast nonempty] at ends
    exact last (beq_iff_eq.mpr (Option.some.inj ends))

theorem trimBase_append_slashes (base : String) (n : Nat) :
    trimBase (base ++ String.ofList (slashes n)) = trimBase base := by
  have all : ∀ c ∈ (slashes n).reverse, (c == '/') = true := by simp [slashes]
  rw [trimBase, String.toList_append, String.toList_ofList, List.reverse_append,
    List.dropWhile_append_of_pos all, trimBase]

end Photo

namespace Store

open Photo

variable {base key key' link : String}

theorem photoLink_of_ne (nonempty : key ≠ "") :
    photoLink base key = .ok (String.ofList (trimBase base ++ '/' :: encode key)) := by
  rw [photoLink, link?, if_neg nonempty, Option.elim_some]

theorem photoLink_empty (base : String) :
    photoLink base "" = .error (.malformed "empty photo key") := rfl

theorem eq_of_photoLink (linked : photoLink base key = .ok link)
    (linked' : photoLink base key' = .ok link) : key = key' := by
  have nonempty {key : String} (linked : photoLink base key = .ok link) : key ≠ "" := by
    rintro rfl
    simp [photoLink_empty] at linked
  rw [photoLink_of_ne (nonempty linked)] at linked
  rw [photoLink_of_ne (nonempty linked')] at linked'
  have same := String.ofList_injective (Except.ok.inj (linked.trans linked'.symm))
  simpa using encode_injective (List.cons.inj (List.append_cancel_left same)).2

/-- The link of a key is the base without the slashes at its end, one slash, and a segment out of
which the bytes of the key are read. Different keys have different links, the slashes at the end of
the base make no difference, and an empty key is malformed. -/
theorem links_are_faithful :
    (∀ base key, key ≠ "" → ∃ root segment, IsRoot base root ∧
      photoLink base key = .ok (String.ofList (root ++ '/' :: segment)) ∧ segment ≠ [] ∧
      IsSegment segment ∧ (∀ c ∈ segment, c ∉ delimiters) ∧
      decodeBytes? segment = some (Text.utf8 key.toList)) ∧
    (∀ base key key' link, photoLink base key = .ok link → photoLink base key' = .ok link →
      key = key') ∧
    (∀ base m n key, photoLink (base ++ String.ofList (slashes m)) key =
      photoLink (base ++ String.ofList (slashes n)) key) ∧
    ∀ base, photoLink base "" = .error (.malformed "empty photo key") := by
  refine ⟨?_, fun _ _ _ _ => eq_of_photoLink, ?_, photoLink_empty⟩
  · intro base key nonempty
    have whole : IsSegment (encode key) := isSegment_encodeBytes _
    exact ⟨trimBase base, encode key, isRoot_trimBase base, photoLink_of_ne nonempty,
      encode_ne_nil nonempty, whole, whole.not_mem_delimiters, decodeBytes?_encodeBytes _⟩
  · intro base m n key
    rw [photoLink, photoLink, link?, link?, trimBase_append_slashes, trimBase_append_slashes]

/-- A key with a slash and with a letter of two bytes, after a base with slashes at its end. -/
theorem links_are_faithful_cafe :
    photoLink "cdn//" "café/1" = .ok "cdn/caf%C3%A9%2F1" ∧
      ∀ key, photoLink "cdn" key = .ok "cdn/caf%C3%A9%2F1" → key = "café/1" := by
  obtain ⟨-, apart, slashed, -⟩ := links_are_faithful
  have linked : photoLink "cdn//" "café/1" = .ok "cdn/caf%C3%A9%2F1" := rfl
  have bare : photoLink "cdn//" "café/1" = photoLink "cdn" "café/1" := slashed "cdn" 2 0 "café/1"
  exact ⟨linked, fun key same => apart "cdn" key "café/1" _ same (bare ▸ linked)⟩

end Store

end Matchmaking
