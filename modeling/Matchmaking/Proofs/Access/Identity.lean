import Matchmaking.Access.Bearer
import Mathlib.Data.List.DropRight
/-! Who a request comes from. It is decided by the first header named `Authorization` alone, and
there by the text between the word of the scheme and the blanks around it. -/
namespace Matchmaking

namespace Text

variable {s t before after : List Char}

structure IsTrimmed (s : List Char) : Prop where
  start : ∀ c, s.head? = some c → ¬isBlank c
  finish : ∀ c, s.getLast? = some c → ¬isBlank c

theorem trim_eq_rdropWhile (s : List Char) : trim s = (trimStart s).rdropWhile isBlank := rfl

/-- Trimming takes nothing away but blanks at both ends. -/
theorem exists_eq_trim (s : List Char) :
    ∃ before after, s = before ++ (trim s ++ after) ∧ (∀ c ∈ before, isBlank c) ∧
      ∀ c ∈ after, isBlank c := by
  refine ⟨s.takeWhile isBlank, (trimStart s).rtakeWhile isBlank, ?_, ?_, ?_⟩
  · rw [trim_eq_rdropWhile, List.rdropWhile_append_rtakeWhile]
    exact List.takeWhile_append_dropWhile.symm
  · exact fun c mem => List.mem_takeWhile_imp mem
  · exact fun c mem => List.mem_rtakeWhile_imp mem

theorem isTrimmed_trim (s : List Char) : IsTrimmed (trim s) := by
  constructor
  · intro c starts
    obtain ⟨rest, same⟩ : trim s <+: trimStart s := List.rdropWhile_prefix isBlank _
    have left : (trimStart s).head? = some c := by
      rw [← same, List.head?_append, starts]
      rfl
    have kept := List.head?_dropWhile_not isBlank s
    rw [trimStart] at left
    rw [left] at kept
    simpa using kept
  · intro c ends
    rw [trim_eq_rdropWhile] at ends
    have nonempty : (trimStart s).rdropWhile isBlank ≠ [] := by
      intro empty
      simp [empty] at ends
    have kept := List.rdropWhile_last_not isBlank (trimStart s) nonempty
    rw [List.getLast?_eq_some_getLast nonempty] at ends
    rwa [Option.some.inj ends] at kept

theorem trim_append (trimmed : IsTrimmed t) (nonempty : t ≠ [])
    (leading : ∀ c ∈ before, isBlank c) (trailing : ∀ c ∈ after, isBlank c) :
    trim (before ++ (t ++ after)) = t := by
  have started : trimStart (before ++ (t ++ after)) = t ++ after := by
    rw [trimStart, List.dropWhile_append_of_pos leading]
    obtain ⟨c, rest, rfl⟩ := List.exists_cons_of_ne_nil nonempty
    exact trimStart_cons_of_not_isBlank _ (by simpa using trimmed.start c rfl)
  rw [trim, started, trimEnd, List.reverse_append, List.dropWhile_append_of_pos]
  · change t.rdropWhile isBlank = t
    refine List.rdropWhile_eq_self_iff.mpr fun held => ?_
    exact trimmed.finish _ (List.getLast?_eq_some_getLast held)
  · exact fun c mem => trailing c (List.mem_reverse.mp mem)

end Text

namespace Access

variable {name value : String} {headers : List Header} {token : List Char}

/-- The first header of that name, in any case of letters, has the value. -/
def IsFirst (name value : String) (headers : List Header) : Prop :=
  ∃ earlier key later, headers = earlier ++ (key, value) :: later ∧ Text.lowerCase key = name ∧
    ∀ h ∈ earlier, Text.lowerCase h.1 ≠ name

theorem header?_eq_some_iff : header? name headers = some value ↔ IsFirst name value headers := by
  unfold header?
  simp only [Option.map_eq_some_iff, List.find?_eq_some_iff_append]
  constructor
  · rintro ⟨⟨key, _⟩, ⟨same, earlier, later, listed, other⟩, rfl⟩
    exact ⟨earlier, key, later, listed, by simpa using same,
      fun h mem => by simpa using other h mem⟩
  · rintro ⟨earlier, key, later, listed, same, other⟩
    refine ⟨(key, value), ⟨by simpa using same, earlier, later, listed, ?_⟩, rfl⟩
    exact fun h mem => by simpa using other h mem

/-- The value of a header offers a token: a plain text of the scheme and, between blanks, the
token. -/
structure Offers (value token : List Char) : Prop where
  plain : ∀ c ∈ value, isPlain c
  spread : ∃ before after, value = scheme ++ (before ++ (token ++ after)) ∧
    (∀ c ∈ before, Text.isBlank c) ∧ ∀ c ∈ after, Text.isBlank c
  trimmed : Text.IsTrimmed token
  nonempty : token ≠ []

theorem tokenIn?_eq_some_iff {value : List Char} :
    tokenIn? value = some token ↔ Offers value token := by
  unfold tokenIn?
  constructor
  · intro found
    obtain ⟨checked, found⟩ := Option.ite_none_right_eq_some.mp found
    rw [Bool.and_eq_true, List.all_eq_true, List.isPrefixOf_iff_prefix] at checked
    obtain ⟨plain, rest, rfl⟩ := checked
    rw [List.drop_left] at found
    have trimmed : Text.trim rest = token ∧ token ≠ [] := by
      split at found
      · cases found
      · next other =>
        obtain rfl := Option.some.inj found
        exact ⟨rfl, other⟩
    obtain ⟨rfl, nonempty⟩ := trimmed
    obtain ⟨before, after, same, blanks⟩ := Text.exists_eq_trim rest
    exact ⟨plain, ⟨before, after, congrArg (scheme ++ ·) same, blanks⟩, Text.isTrimmed_trim rest,
      nonempty⟩
  · rintro ⟨plain, ⟨before, after, rfl, leading, trailing⟩, trimmed, nonempty⟩
    have checked : (scheme ++ (before ++ (token ++ after))).all isPlain &&
        scheme.isPrefixOf (scheme ++ (before ++ (token ++ after))) := by
      rw [Bool.and_eq_true, List.all_eq_true, List.isPrefixOf_iff_prefix]
      exact ⟨plain, List.prefix_append _ _⟩
    rw [if_pos checked, List.drop_left, Text.trim_append trimmed nonempty leading trailing]
    obtain ⟨c, rest, rfl⟩ := List.exists_cons_of_ne_nil nonempty
    rfl

end Access
end Matchmaking
