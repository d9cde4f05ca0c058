/-! Texts as bytes in UTF-8. -/
namespace Matchmaking
namespace Text

def utf8 (s : List Char) : List UInt8 := (String.ofList s).toUTF8.data.toList

def ofUtf8? (bytes : List UInt8) : Option (List Char) :=
  (String.fromUTF8? ⟨bytes.toArray⟩).map String.toList

theorem fromUTF8?_toUTF8 (s : String) : String.fromUTF8? s.toUTF8 = some s := dif_pos s.isValidUTF8

@[simp] theorem ofUtf8?_utf8 (s : List Char) : ofUtf8? (utf8 s) = some s := by
  rw [ofUtf8?, utf8, Array.toArray_toList, fromUTF8?_toUTF8, Option.map_some, String.toList_ofList]

theorem utf8_injective {s t : List Char} (h : utf8 s = utf8 t) : s = t := by
  simpa using congrArg ofUtf8? h

/-- The character that bytes start with, and how many of them make it up. -/
def leadingChar? (bytes : List UInt8) : Option (Char × Nat) :=
  [1, 2, 3, 4].findSome? fun n =>
    match ofUtf8? (bytes.take n) with
    | some [c] => some (c, n)
    | _ => none

/-- What stands for a byte that belongs to no character. Inside a string of JSON the second low
unit is unpaired whatever is around it, so the string denotes no text; after a backslash, in a `\u`
escape and outside strings the letter is out of place. -/
def spoiler : List Char := "x\\udc00\\udc00".toList

/-- The text of bytes for a reader of JSON, where a byte that belongs to no character spoils the
string it stands in. The first argument bounds the number of characters. -/
def readable : Nat → List UInt8 → List Char
  | 0, _ | _, [] => []
  | n + 1, b :: rest =>
    match leadingChar? (b :: rest) with
    | some (c, width) => c :: readable n ((b :: rest).drop width)
    | none => spoiler ++ readable n rest

def ofUtf8Readable (bytes : List UInt8) : List Char := readable bytes.length bytes

/-- The parts of a text between separators; there is one more of them than separators. -/
def splitAt (separator : Char) : List Char → List (List Char)
  | [] => [[]]
  | c :: rest =>
    if c = separator then [] :: splitAt separator rest
    else
      match splitAt separator rest with
      | part :: parts => (c :: part) :: parts
      | [] => [[c]]

theorem splitAt_ne_nil (separator : Char) (s : List Char) : splitAt separator s ≠ [] := by
  cases s with
  | nil => simp [splitAt]
  | cons c s => 
    unfold splitAt
    split
    · simp
    · split <;> simp

theorem splitAt_of_not_mem {separator : Char} {s : List Char} (h : separator ∉ s) :
    splitAt separator s = [s] := by
  induction s with
  | nil => rfl
  | cons c s ih =>
    rw [List.mem_cons, not_or] at h
    simp [splitAt, Ne.symm h.1, ih h.2]

theorem splitAt_append {separator : Char} {s : List Char} (h : separator ∉ s) (t : List Char) :
    splitAt separator (s ++ separator :: t) = s :: splitAt separator t := by
  induction s with
  | nil => simp [splitAt]
  | cons c s ih =>
    rw [List.mem_cons, not_or] at h
    simp [splitAt, Ne.symm h.1, ih h.2]

theorem not_mem_of_mem_splitAt {separator : Char} {s part : List Char}
    (h : part ∈ splitAt separator s) : separator ∉ part := by
  induction s generalizing part with
  | nil => simp_all [splitAt]
  | cons c s ih =>
    unfold splitAt at h
    split at h
    · rcases List.mem_cons.mp h with rfl | h
      · simp
      · exact ih h
    · next other =>
      split at h
      · next first parts same =>
        rw [same] at ih
        rcases List.mem_cons.mp h with rfl | h
        · simpa [Ne.symm other] using ih List.mem_cons_self
        · exact ih (List.mem_cons_of_mem _ h)
      · next none => exact absurd none (splitAt_ne_nil separator s)

/-- Joining the parts gives the text back. -/
theorem intercalate_splitAt (separator : Char) (s : List Char) :
    [separator].intercalate (splitAt separator s) = s := by
  induction s with
  | nil => rfl
  | cons c s ih =>
    unfold splitAt
    split
    · next h =>
      subst h
      rw [List.intercalate_cons_of_ne_nil (splitAt_ne_nil c s), ih]
      rfl
    · revert ih
      rcases splitAt separator s with _ | ⟨part, _ | ⟨next, parts⟩⟩ <;>
        simp +contextual [List.intercalate_cons_cons]

theorem splitAt_injective (separator : Char) {s t : List Char}
    (h : splitAt separator s = splitAt separator t) : s = t := by
  rw [← intercalate_splitAt separator s, h, intercalate_splitAt]

end Text
end Matchmaking
