import Matchmaking.Text.Utf8
import Mathlib.Tactic.Common
/-! Texts in UTF-8 read back for a reader of JSON: of a text's own bytes none belongs to no
character, since the bytes of a character stand for it alone, and none of their beginnings stands
for any. -/
namespace Matchmaking
namespace Text

variable {c d : Char} {s : List Char} {bytes : List UInt8}

theorem utf8_cons (c : Char) (s : List Char) : utf8 (c :: s) = utf8 [c] ++ utf8 s := by
  change (c :: s).utf8Encode.data.toList = [c].utf8Encode.data.toList ++ s.utf8Encode.data.toList
  rw [List.utf8Encode_cons, ByteArray.data_append, Array.toList_append]

theorem length_utf8_singleton (c : Char) : (utf8 [c]).length = c.utf8Size := by
  change [c].utf8Encode.data.toList.length = _
  rw [List.utf8Encode_singleton]
  simp

theorem utf8_of_ofUtf8? (h : ofUtf8? bytes = some s) : utf8 s = bytes := by
  obtain ⟨t, valid, rfl⟩ := Option.map_eq_some_iff.mp h
  rw [String.fromUTF8?, Option.dite_none_right_eq_some] at valid
  obtain ⟨valid, ⟨⟩⟩ := valid
  rw [utf8, String.ofList_toList]
  rfl

theorem eq_of_utf8_append {rest : List UInt8} (same : utf8 (c :: s) = utf8 [d] ++ rest) :
    c = d := by
  have arrays : (c :: s).utf8Encode = [d].utf8Encode ++ ⟨rest.toArray⟩ := by
    refine ByteArray.ext (Array.toList_inj.mp ?_)
    rw [ByteArray.data_append, Array.toList_append]
    exact same
  have first := List.utf8DecodeChar?_utf8Encode_cons (l := s) (c := c)
  rw [arrays, List.utf8DecodeChar?_utf8Encode_singleton_append] at first
  exact (Option.some.inj first).symm

theorem leadingChar?_utf8_cons (c : Char) (s : List Char) :
    leadingChar? (utf8 (c :: s)) = some (c, c.utf8Size) := by
  have whole : (utf8 (c :: s)).take c.utf8Size = utf8 [c] := by
    rw [utf8_cons, ← length_utf8_singleton, List.take_left]
  have least (n : Nat) (d : Char) (taken : ofUtf8? ((utf8 (c :: s)).take n) = some [d]) :
      c.utf8Size ≤ n := by
    have same := utf8_of_ofUtf8? taken
    have split : utf8 (c :: s) = utf8 [d] ++ (utf8 (c :: s)).drop n := by
      rw [same, List.take_append_drop]
    obtain rfl := eq_of_utf8_append split
    rw [← length_utf8_singleton, same, List.length_take]
    exact Nat.min_le_left _ _
  have sizes : c.utf8Size = 1 ∨ c.utf8Size = 2 ∨ c.utf8Size = 3 ∨ c.utf8Size = 4 := by
    have := c.utf8Size_pos
    have := c.utf8Size_le_four
    omega
  rw [leadingChar?, List.findSome?_eq_some_iff]
  refine ⟨List.range' 1 (c.utf8Size - 1), c.utf8Size,
    List.range' (c.utf8Size + 1) (4 - c.utf8Size), ?_, ?_, ?_⟩
  · rcases sizes with size | size | size | size <;> rw [size] <;> rfl
  · simp [whole]
  · intro n before
    have short : n < c.utf8Size := by
      rw [List.mem_range'_1] at before
      omega
    split
    · next d taken => exact absurd (least n d taken) (by omega)
    · rfl

theorem readable_utf8 (s : List Char) {fuel : Nat} (enough : (utf8 s).length ≤ fuel) :
    readable fuel (utf8 s) = s := by
  induction s generalizing fuel with
  | nil => cases fuel <;> rfl
  | cons c s ih =>
    have leading := leadingChar?_utf8_cons c s
    have left : (utf8 (c :: s)).drop c.utf8Size = utf8 s := by
      rw [utf8_cons, ← length_utf8_singleton, List.drop_left]
    have bound : (utf8 (c :: s)).length = c.utf8Size + (utf8 s).length := by
      rw [utf8_cons, List.length_append, length_utf8_singleton]
    have := c.utf8Size_pos
    obtain ⟨n, rfl⟩ := Nat.exists_eq_succ_of_ne_zero (n := fuel) (by omega)
    obtain ⟨b, rest, same⟩ := List.exists_cons_of_ne_nil (l := utf8 (c :: s)) (by
      rw [← List.length_pos_iff]; omega)
    rw [same] at leading left ⊢
    rw [readable, leading]
    simp only [left]
    rw [ih (by omega)]

@[simp] theorem ofUtf8Readable_utf8 (s : List Char) : ofUtf8Readable (utf8 s) = s :=
  readable_utf8 s (Nat.le_refl _)

end Text
end Matchmaking
