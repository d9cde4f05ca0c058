import Matchmaking.Settings.Basic
import Mathlib
/-! What keys and names of variables lead to. A key that is a plain word stands for itself; the
name of a variable that is made of two words, each after two underlines in a row, leads to the
entry of a section. -/
namespace Matchmaking

namespace Text

theorem lowerChar_lowerChar (c : Char) : lowerChar (lowerChar c) = lowerChar c := by
  by_cases sign : c = '\u212a'
  · subst sign
    rfl
  · have notSign : c.toLower ≠ '\u212a' := by
      intro isSign
      by_cases upper : c.isUpper
      · have small : c.toLower.isLower := by simp [Char.isAlpha, upper]
        rw [isSign] at small
        cases small
      · exact sign ((Char.toLower_eq_of_not_isUpper upper).symm.trans isSign)
    simp [lowerChar, sign, notSign]

@[simp] theorem lowerCase_lowerCase (s : String) : lowerCase (lowerCase s) = lowerCase s := by
  simp [lowerCase, lower, lowerChar_lowerChar, Function.comp_def]

end Text

namespace Setting

namespace Path

variable {s : List Char} {key : String}

theorem isNameChar_of_lowerChar {c : Char} (named : isNameChar (Text.lowerChar c))
    (other : Text.lowerChar c ≠ 'k') : isNameChar c := by
  have notSign : c ≠ '\u212a' := by
    rintro rfl
    exact other rfl
  rw [Text.lowerChar, if_neg notSign] at named
  by_cases upper : c.isUpper
  · simp [isNameChar, Char.isAlphanum, Char.isAlpha, upper]
  · rwa [Char.toLower_eq_of_not_isUpper upper] at named

theorem readSteps?_eq_nil_iff {n : Nat} : readSteps? n s = some [] ↔ s = [] := by
  fun_cases readSteps? n s with
  | case4 n rest => simp [Option.bind_eq_some_iff]
  | _ => simp_all

theorem ofKey_of_word (word : ∀ c ∈ key.toList, isNameChar c) : ofKey key = [.key key] := by
  have whole : key.toList.takeWhile isNameChar = key.toList := List.takeWhile_eq_self_iff.mpr word
  have rest : key.toList.dropWhile isNameChar = [] := List.dropWhile_eq_nil_iff.mpr word
  by_cases empty : key.toList = []
  · simp [ofKey, read?, empty]
  · simp [ofKey, read?, whole, rest, empty, readSteps?]

theorem ofKey_dotted {s t : List Char} (word : ∀ c ∈ s, isNameChar c) (some_ : s ≠ [])
    (word' : ∀ c ∈ t, isNameChar c) (some' : t ≠ []) :
    ofKey (String.ofList (s ++ '.' :: t)) = [.key (String.ofList s), .key (String.ofList t)] := by
  have whole : (s ++ '.' :: t).takeWhile isNameChar = s := by
    rw [List.takeWhile_append_of_pos word]
    simp [isNameChar]
  have rest : (s ++ '.' :: t).dropWhile isNameChar = '.' :: t := by
    rw [List.dropWhile_append_of_pos word]
    rfl
  have whole' : t.takeWhile isNameChar = t := List.takeWhile_eq_self_iff.mpr word'
  have rest' : t.dropWhile isNameChar = [] := List.dropWhile_eq_nil_iff.mpr word'
  simp [ofKey, read?, whole, rest, whole', rest', some_, some', readSteps?]

theorem exists_ofKey (key : String) : ∃ p rest, ofKey key = .key p :: rest := by
  unfold ofKey read?
  dsimp only
  split
  · exact ⟨key, [], rfl⟩
  · cases readSteps? _ (key.toList.dropWhile isNameChar) with
    | none => exact ⟨key, [], rfl⟩
    | some steps => exact ⟨_, steps, rfl⟩

theorem eq_of_ofKey {p : String} (path : ofKey key = [.key p]) : p = key := by
  unfold ofKey read? at path
  dsimp only at path
  split at path
  · cases path
    rfl
  · cases read : readSteps? (key.toList.dropWhile isNameChar).length
        (key.toList.dropWhile isNameChar) with
    | none =>
      rw [read] at path
      cases path
      rfl
    | some steps =>
      rw [read] at path
      obtain ⟨named, rfl⟩ : String.ofList (key.toList.takeWhile isNameChar) = p ∧ steps = [] := by
        simpa using path
      have all := List.takeWhile_append_dropWhile (p := isNameChar) (l := key.toList)
      rw [readSteps?_eq_nil_iff.mp read, List.append_nil] at all
      rw [← named, all, String.ofList_toList]

end Path

/-! ### Names of variables -/

def Unbroken (s : List Char) : Prop := s.IsChain fun c d => ¬(c = '_' ∧ d = '_')

instance (s : List Char) : Decidable (Unbroken s) := inferInstanceAs (Decidable (List.IsChain _ s))

structure IsWord (s : List Char) : Prop where
  nonempty : s ≠ []
  named : s.all Path.isNameChar
  unbroken : Unbroken s

def variableName (name key : String) : String := "spark__" ++ name ++ "__" ++ key

/-- The variable is named for that entry of that section, in whatever case. -/
structure Names (v part key : String) : Prop where
  lowered : Text.lowerCase v = variableName part key
  partWord : IsWord part.toList
  keyWord : IsWord key.toList
  /-- The word for the section ends where the underlines before the key begin. -/
  apart : Unbroken (part.toList ++ ['_'])

section

variable {s t a b : List Char}

theorem withDots_cons {c : Char} (alone : ∀ d ∈ s.head?, ¬(c = '_' ∧ d = '_')) :
    withDots (c :: s) = c :: withDots s := by
  cases s with
  | nil => simp [withDots]
  | cons d rest =>
    rw [withDots]
    intro rest' first same
    obtain ⟨second, -⟩ := List.cons.inj same
    exact alone d rfl ⟨first, second⟩

theorem withDots_of_unbroken (unbroken : Unbroken s) : withDots s = s := by
  induction s with
  | nil => rfl
  | cons c s ih =>
    obtain ⟨alone, rest⟩ := List.isChain_cons.mp unbroken
    rw [withDots_cons alone, ih rest]

theorem withDots_append (unbroken : Unbroken (s ++ ['_'])) (rest : List Char) :
    withDots (s ++ '_' :: '_' :: rest) = s ++ '.' :: withDots rest := by
  induction s with
  | nil => rfl
  | cons c s ih =>
    obtain ⟨alone, later⟩ := List.isChain_cons.mp unbroken
    have head : (s ++ '_' :: '_' :: rest).head? = (s ++ ['_']).head? := by cases s <;> rfl
    rw [List.cons_append, withDots_cons (head ▸ alone), ih later, List.cons_append]

theorem not_unbroken_of_gap {c : Char} {s : List Char}
    (same : '_' :: '_' :: a = c :: s ++ '_' :: '_' :: b) : ¬Unbroken (c :: s ++ ['_']) := by
  intro unbroken
  obtain ⟨rfl, rest⟩ := List.cons.inj same
  have next : (s ++ ['_']).head? = some '_' := by
    cases s with
    | nil => rfl
    | cons d s => exact congrArg some (List.cons.inj rest).1.symm
  exact (List.isChain_cons.mp unbroken).1 '_' next ⟨rfl, rfl⟩

theorem eq_of_append_gap (first : Unbroken (s ++ ['_'])) (second : Unbroken (t ++ ['_']))
    (same : s ++ '_' :: '_' :: a = t ++ '_' :: '_' :: b) : s = t ∧ a = b := by
  induction s generalizing t with
  | nil =>
    cases t with
    | nil => simpa using same
    | cons c t => exact absurd second (not_unbroken_of_gap same)
  | cons c s ih =>
    cases t with
    | nil => exact absurd first (not_unbroken_of_gap same.symm)
    | cons d t =>
      obtain ⟨rfl, rest⟩ := List.cons.inj same
      obtain ⟨rfl, rfl⟩ := ih first.tail second.tail rest
      exact ⟨rfl, rfl⟩

end

variable {v : Variable} {name key : String}

theorem toList_variableName (name key : String) :
    (variableName name key).toList =
      variableStart ++ (name.toList ++ '_' :: '_' :: key.toList) := by
  simp only [variableName, String.toList_append, List.append_assoc]
  rfl

/-- The variable leads to the entry that it is named for. -/
theorem ofNamed?_of_names (names : Names v.1 name key) :
    ofNamed? v = some ⟨[.key name, .key key], ofVariable v.2⟩ := by
  have lowered : Text.lower v.1.toList =
      variableStart ++ (name.toList ++ '_' :: '_' :: key.toList) := by
    rw [← toList_variableName, ← names.lowered, Text.lowerCase, String.toList_ofList]
  have path := Path.ofKey_dotted (List.all_eq_true.mp names.partWord.named) names.partWord.nonempty
    (List.all_eq_true.mp names.keyWord.named) names.keyWord.nonempty
  simp only [String.ofList_toList] at path
  have dotted := withDots_append names.apart key.toList
  rw [withDots_of_unbroken names.keyWord.unbroken] at dotted
  have started : variableStart.isPrefixOf (Text.lower v.1.toList) := by simp [lowered]
  have rest : (Text.lower v.1.toList).drop variableStart.length =
      name.toList ++ '_' :: '_' :: key.toList := by
    rw [lowered, List.drop_left]
  simp only [ofNamed?, started, rest, dotted, path, if_true]

theorem Names.lowerCase_words {v part : String} (names : Names v part key) :
    Text.lowerCase part = part ∧ Text.lowerCase key = key := by
  have whole : Text.lower (variableName part key).toList = (variableName part key).toList := by
    have again := congrArg String.toList (Text.lowerCase_lowerCase v)
    rwa [names.lowered, Text.lowerCase, String.toList_ofList] at again
  rw [toList_variableName, Text.lower_append, Text.lower_append] at whole
  have rest := (List.append_inj whole (by simp [Text.lower])).2
  obtain ⟨parts, keys⟩ := List.append_inj rest (by simp [Text.lower])
  refine ⟨String.toList_inj.mp ?_, String.toList_inj.mp ?_⟩
  · rw [Text.lowerCase, String.toList_ofList, parts]
  · rw [Text.lowerCase, String.toList_ofList]
    exact (List.cons.inj (List.cons.inj keys).2).2

theorem Names.variableName_eq_iff {v part part' : String} (names : Names v part key)
    (key' : String) (apart : Unbroken (part'.toList ++ ['_'])) :
    Text.lowerCase v = variableName part' key' ↔ part = part' ∧ key = key' := by
  rw [names.lowered]
  refine ⟨fun same => ?_, fun same => by rw [same.1, same.2]⟩
  have lists := congrArg String.toList same
  rw [toList_variableName, toList_variableName] at lists
  obtain ⟨parts, keys⟩ := eq_of_append_gap names.apart apart (List.append_cancel_left lists)
  exact ⟨String.toList_inj.mp parts, String.toList_inj.mp keys⟩

end Setting
end Matchmaking
