import Matchmaking.Http.Message
import Matchmaking.Json.Printer
import Matchmaking.Proofs.Json.Fields
import Matchmaking.Proofs.Json.Token
import Mathlib.Data.List.TakeWhile
/-! The grammar of JSON. `Spells` tells which texts write a value, the items between the brackets of
an array or the members between the braces of an object, with blanks wherever they may stand. The
main statements are that a text that is spelled is read, and that what is printed is spelled. -/
namespace Matchmaking
namespace Json

def IsGap (s : List Char) : Prop := ∀ c ∈ s, isSpace c

/-- What a stretch of text may write. -/
inductive Part
  | value (v : Json)
  /-- What stands between the brackets of an array. -/
  | items (vs : List Json)
  /-- What stands between the braces of an object. -/
  | members (ms : Members)

inductive Spells : Part → List Char → Prop
  | null : Spells (.value .null) "null".toList
  | true : Spells (.value (.bool true)) "true".toList
  | false : Spells (.value (.bool false)) "false".toList
  | number {n : Numeral} {s : List Char} (token : n.Spells s) : Spells (.value (.number n)) s
  | text {t : Option String} {s : List Char} (token : Quoted.Spells t s) :
      Spells (.value (ofText t)) ('"' :: (s ++ ['"']))
  | emptyArray {gap : List Char} (blank : IsGap gap) :
      Spells (.value (.array [])) ('[' :: (gap ++ [']']))
  | array {vs : List Json} {s : List Char} (items : Spells (.items vs) s) :
      Spells (.value (.array vs)) ('[' :: (s ++ [']']))
  | emptyObject {gap : List Char} (blank : IsGap gap) :
      Spells (.value (.object [])) ('\x7b' :: (gap ++ ['\x7d']))
  | object {ms : Members} {s : List Char} (members : Spells (.members ms) s) :
      Spells (.value (.object ms)) ('\x7b' :: (s ++ ['\x7d']))
  | spaced {v : Json} {before s after : List Char} (start : IsGap before) (finish : IsGap after)
      (value : Spells (.value v) s) : Spells (.value v) (before ++ (s ++ after))
  | lastItem {v : Json} {s : List Char} (value : Spells (.value v) s) : Spells (.items [v]) s
  | item {v : Json} {vs : List Json} {s t : List Char} (value : Spells (.value v) s)
      (rest : Spells (.items vs) t) : Spells (.items (v :: vs)) (s ++ ',' :: t)
  | lastMember {k : Option String} {v : Json} {before key after s : List Char}
      (start : IsGap before) (name : Quoted.Spells k key) (finish : IsGap after)
      (value : Spells (.value v) s) :
      Spells (.members [(k, v)]) (before ++ '"' :: (key ++ '"' :: (after ++ ':' :: s)))
  | member {k : Option String} {v : Json} {ms : Members} {before key after s t : List Char}
      (start : IsGap before) (name : Quoted.Spells k key) (finish : IsGap after)
      (value : Spells (.value v) s) (rest : Spells (.members ms) t) :
      Spells (.members ((k, v) :: ms))
        (before ++ '"' :: (key ++ '"' :: (after ++ ':' :: (s ++ ',' :: t))))

section Reading

variable {s t rest gap : List Char} {c : Char} {v : Json} {fuel : Nat}

@[simp] theorem skipSpace_append (blank : IsGap gap) : skipSpace (gap ++ s) = skipSpace s := by
  rw [skipSpace, List.dropWhile_append_of_pos blank, skipSpace]

theorem skipSpace_of_token (h : isSpace c = false) : skipSpace (c :: s) = c :: s := by
  simp [skipSpace, h]

/-- Nothing that a token could go on with: an end, a blank or a mark after a value. -/
def Closes (rest : List Char) : Prop :=
  ∀ c, rest.head? = some c → isSpace c ∨ c = ',' ∨ c = ']' ∨ c = '\x7d'

theorem Closes.ends (closes : Closes rest) : Numeral.Ends rest := by
  intro c starts
  rcases closes c starts with space | rfl | rfl | rfl
  · simp only [isSpace, Bool.or_eq_true, decide_eq_true_eq] at space
    rcases space with ((rfl | rfl) | rfl) | rfl <;> decide
  all_goals decide

theorem Closes.append (closes : Closes rest) (blank : IsGap gap) : Closes (gap ++ rest) := by
  cases gap with
  | nil => exact closes
  | cons c gap =>
    intro d starts
    obtain rfl : c = d := by simpa using starts
    exact .inl (blank c List.mem_cons_self)

theorem readValue_congr (fuel : Nat) (h : skipSpace s = skipSpace t) :
    readValue fuel s = readValue fuel t := by
  cases fuel with
  | zero => rfl
  | succ fuel => rw [readValue, readValue, h]

theorem readItems_congr (fuel : Nat) (h : skipSpace s = skipSpace t) :
    readItems fuel s = readItems fuel t := by
  cases fuel with
  | zero => rfl
  | succ fuel => rw [readItems, readItems, readValue_congr fuel h]

theorem readMembers_congr (fuel : Nat) (h : skipSpace s = skipSpace t) :
    readMembers fuel s = readMembers fuel t := by
  cases fuel with
  | zero => rfl
  | succ fuel => rw [readMembers, readMembers, h]

theorem skipSpace_skipSpace (s : List Char) : skipSpace (skipSpace s) = skipSpace s := by
  conv_rhs => rw [← List.takeWhile_append_dropWhile (p := isSpace) (l := s)]
  exact (skipSpace_append fun c mem => List.mem_takeWhile_imp mem).symm

theorem head?_ne_bracket (read : (readItems fuel s).2.isSome) :
    (skipSpace s).head? ≠ some ']' := by
  intro starts
  obtain ⟨r, same⟩ := List.head?_eq_some_iff.mp starts
  have refused : readValue (fuel - 1) s = (.broken, none) := by
    cases fuel - 1 with
    | zero => rfl
    | succ n => simp [readValue, same, readPlain, words, Numeral.read?, Numeral.readWhole?]
  cases fuel with
  | zero => simp [readItems] at read
  | succ n =>
    rw [Nat.add_sub_cancel] at refused
    simp [readItems, refused] at read

theorem head?_ne_brace (read : (readMembers fuel s).2.isSome) :
    (skipSpace s).head? ≠ some '\x7d' := by
  intro starts
  obtain ⟨r, same⟩ := List.head?_eq_some_iff.mp starts
  cases fuel with
  | zero => simp [readMembers] at read
  | succ n => simp [readMembers, same] at read

/-- A part is read with what follows it left over. -/
def Reads : Part → List Char → Prop
  | .value v, s => ∀ fuel rest, s.length ≤ fuel → Closes rest →
      ∃ r, readValue fuel (s ++ rest) = (v, some r) ∧ skipSpace r = skipSpace rest
  | .items vs, s => ∀ fuel rest, s.length < fuel →
      readItems fuel (s ++ ']' :: rest) = (vs, some rest)
  | .members ms, s => ∀ fuel rest, s.length < fuel →
      readMembers fuel (s ++ '\x7d' :: rest) = (ms, some rest)

theorem readValue_token (n : Nat) (token : c = '-' ∨ c.isDigit) (s : List Char) :
    readValue (n + 1) (c :: s) = readPlain (c :: s) := by
  have visible : isSpace c = false ∧ c ≠ '\x7b' ∧ c ≠ '[' ∧ c ≠ '"' := by
    refine ⟨?_, ?_, ?_, ?_⟩
    · rcases token with rfl | digit
      · decide
      · by_contra space
        simp only [isSpace, Bool.not_eq_false, Bool.or_eq_true, decide_eq_true_eq] at space
        rcases space with ((rfl | rfl) | rfl) | rfl <;> exact absurd digit (by decide)
    all_goals rintro rfl; simp [Char.isDigit] at token
  rw [readValue, skipSpace_of_token visible.1]
  split
  · next same => exact absurd (List.cons.inj same).1 visible.2.1
  · next same => exact absurd (List.cons.inj same).1 visible.2.2.1
  · next same => exact absurd (List.cons.inj same).1 visible.2.2.2
  · rfl

theorem reads_number {n : Numeral} (token : n.Spells s) : Reads (.value (.number n)) s := by
  intro fuel rest bound closes
  obtain ⟨c, tail, rfl, first⟩ := token.exists_start
  obtain ⟨m, rfl⟩ := Nat.exists_eq_succ_of_ne_zero (n := fuel) (by simp at bound; omega)
  have read := Numeral.read?_of_spells token closes.ends
  have noWord : words.find? (fun w => w.1.isPrefixOf (c :: tail ++ rest)) = none := by
    have other : c ≠ 'n' ∧ c ≠ 't' ∧ c ≠ 'f' := by
      refine ⟨?_, ?_, ?_⟩ <;> rintro rfl <;> simp [Char.isDigit] at first
    simp [words, other.1.symm, other.2.1.symm, other.2.2.symm]
  refine ⟨rest, ?_, rfl⟩
  rw [List.cons_append, readValue_token m first, ← List.cons_append, readPlain, noWord, read]

theorem readValue_bracket (n : Nat) (h : (skipSpace s).head? ≠ some ']') :
    readValue (n + 1) ('[' :: s) = (.array (readItems n s).1, (readItems n s).2) := by
  rw [← readItems_congr n (skipSpace_skipSpace s)]
  simp only [readValue, skipSpace_of_token (show isSpace '[' = false by decide)]
  generalize skipSpace s = inner at h ⊢
  split
  · simp at h
  · rfl

theorem readValue_brace (n : Nat) (h : (skipSpace s).head? ≠ some '\x7d') :
    readValue (n + 1) ('\x7b' :: s) = (.object (readMembers n s).1, (readMembers n s).2) := by
  rw [← readMembers_congr n (skipSpace_skipSpace s)]
  simp only [readValue, skipSpace_of_token (show isSpace '\x7b' = false by decide)]
  generalize skipSpace s = inner at h ⊢
  split
  · simp at h
  · rfl

theorem reads_array {vs : List Json} (items : Reads (.items vs) s) :
    Reads (.value (.array vs)) ('[' :: (s ++ [']'])) := by
  intro fuel rest bound closes
  simp only [List.length_cons, List.length_append, List.length_nil] at bound
  obtain ⟨n, rfl⟩ := Nat.exists_eq_succ_of_ne_zero (n := fuel) (by omega)
  have read := items n rest (by omega)
  have first := head?_ne_bracket (s := s ++ ']' :: rest) (by rw [read]; rfl)
  refine ⟨rest, ?_, rfl⟩
  simp [readValue_bracket n first, read]

theorem reads_object {ms : Members} (members : Reads (.members ms) s) :
    Reads (.value (.object ms)) ('\x7b' :: (s ++ ['\x7d'])) := by
  intro fuel rest bound closes
  simp only [List.length_cons, List.length_append, List.length_nil] at bound
  obtain ⟨n, rfl⟩ := Nat.exists_eq_succ_of_ne_zero (n := fuel) (by omega)
  have read := members n rest (by omega)
  have first := head?_ne_brace (s := s ++ '\x7d' :: rest) (by rw [read]; rfl)
  refine ⟨rest, ?_, rfl⟩
  simp [readValue_brace n first, read]

theorem reads_of_spells {part : Part} (h : Spells part s) : Reads part s := by
  induction h with
  | null =>
    intro fuel rest bound closes
    obtain ⟨n, rfl⟩ := Nat.exists_eq_succ_of_ne_zero (n := fuel) (by simp at bound; omega)
    exact ⟨rest, by simp [readValue, skipSpace, isSpace, readPlain, words], rfl⟩
  | true =>
    intro fuel rest bound closes
    obtain ⟨n, rfl⟩ := Nat.exists_eq_succ_of_ne_zero (n := fuel) (by simp at bound; omega)
    exact ⟨rest, by simp [readValue, skipSpace, isSpace, readPlain, words], rfl⟩
  | false =>
    intro fuel rest bound closes
    obtain ⟨n, rfl⟩ := Nat.exists_eq_succ_of_ne_zero (n := fuel) (by simp at bound; omega)
    exact ⟨rest, by simp [readValue, skipSpace, isSpace, readPlain, words], rfl⟩
  | number token => exact reads_number token
  | @text t s token =>
    intro fuel rest bound closes
    obtain ⟨n, rfl⟩ := Nat.exists_eq_succ_of_ne_zero (n := fuel) (by simp at bound; omega)
    refine ⟨rest, ?_, rfl⟩
    simp [readValue, skipSpace, isSpace, Quoted.read?_of_spells token]
  | emptyArray blank =>
    intro fuel rest bound closes
    obtain ⟨n, rfl⟩ := Nat.exists_eq_succ_of_ne_zero (n := fuel) (by simp at bound; omega)
    refine ⟨rest, ?_, rfl⟩
    simp [readValue, skipSpace_of_token, isSpace, blank]
  | array _ ih => exact reads_array ih
  | emptyObject blank =>
    intro fuel rest bound closes
    obtain ⟨n, rfl⟩ := Nat.exists_eq_succ_of_ne_zero (n := fuel) (by simp at bound; omega)
    refine ⟨rest, ?_, rfl⟩
    simp [readValue, skipSpace_of_token, isSpace, blank]
  | object _ ih => exact reads_object ih
  | @spaced v before s after start finish value ih =>
    intro fuel rest bound closes
    simp only [List.length_append] at bound
    obtain ⟨r, read, left⟩ := ih fuel (after ++ rest) (by omega) (closes.append finish)
    refine ⟨r, ?_, by rw [left, skipSpace_append finish]⟩
    rw [← read, List.append_assoc, List.append_assoc]
    exact readValue_congr fuel (skipSpace_append start)
  | lastItem _ ih =>
    intro fuel rest bound
    obtain ⟨n, rfl⟩ := Nat.exists_eq_succ_of_ne_zero (n := fuel) (by omega)
    obtain ⟨r, read, left⟩ := ih n (']' :: rest) (by omega) (by simp [Closes])
    rw [skipSpace_of_token (by decide)] at left
    simp [readItems, read, left]
  | @item v vs s t _ _ ih ih' =>
    intro fuel rest bound
    simp only [List.length_append, List.length_cons] at bound
    obtain ⟨n, rfl⟩ := Nat.exists_eq_succ_of_ne_zero (n := fuel) (by omega)
    obtain ⟨r, read, left⟩ := ih n (',' :: (t ++ ']' :: rest)) (by omega) (by simp [Closes])
    rw [skipSpace_of_token (by decide)] at left
    have more := ih' n rest (by omega)
    simp [readItems, read, left, more]
  | @lastMember k v before key after s start name finish _ ih =>
    intro fuel rest bound
    simp only [List.length_append, List.length_cons] at bound
    obtain ⟨n, rfl⟩ := Nat.exists_eq_succ_of_ne_zero (n := fuel) (by omega)
    obtain ⟨r, read, left⟩ := ih n ('\x7d' :: rest) (by omega) (by simp [Closes])
    rw [skipSpace_of_token (by decide)] at left
    simp [readMembers, start, finish, skipSpace_of_token, isSpace, Quoted.read?_of_spells name,
      read, left]
  | @member k v ms before key after s t start name finish _ _ ih ih' =>
    intro fuel rest bound
    simp only [List.length_append, List.length_cons] at bound
    obtain ⟨n, rfl⟩ := Nat.exists_eq_succ_of_ne_zero (n := fuel) (by omega)
    obtain ⟨r, read, left⟩ := ih n (',' :: (t ++ '\x7d' :: rest)) (by omega) (by simp [Closes])
    rw [skipSpace_of_token (by decide)] at left
    have more := ih' n rest (by omega)
    simp [readMembers, start, finish, skipSpace_of_token, isSpace, Quoted.read?_of_spells name,
      read, left, more]

/-- A text that spells a value, with nothing but blanks around it, is read as that value. -/
theorem read_of_spells (h : Spells (.value v) s) : read s = ⟨v, true⟩ := by
  obtain ⟨r, found, left⟩ := reads_of_spells h (2 * s.length + 2) [] (by omega) (by simp [Closes])
  rw [List.append_nil] at found
  have ended : skipSpace r = [] := left
  simp [read, found, ended]

theorem decodeText_of_spells {α : Type} {decode : Json → Decoded α} (h : Spells (.value v) s) :
    decodeText decode s = decode v := by
  rw [decodeText, read_of_spells h]
  cases decode v <;> rfl

end Reading

mutual

/-- The value is made up of tokens that can be printed: fractions have digits, and nothing is
broken. -/
def isWritten : Json → Bool
  | .broken => false
  | .number n => n.fraction.all Char.isDigit
  | .array items => areWritten items
  | .object members => membersAreWritten members
  | _ => true

def areWritten : List Json → Bool
  | [] => true
  | v :: rest => v.isWritten && areWritten rest

def membersAreWritten : Members → Bool
  | [] => true
  | (_, v) :: rest => v.isWritten && membersAreWritten rest

end

section Writing

theorem spells_write (s : String) : Spells (.value (.text s)) (Quoted.write s.toList) := by
  have token := Quoted.spells_flatMap_escapeChar s.toList
  rw [String.ofList_toList] at token
  exact .text token

theorem exists_printKey (k : Option String) :
    ∃ s, printKey k = '"' :: (s ++ ['"']) ∧ Quoted.Spells k s := by
  cases k with
  | some k =>
    have token := Quoted.spells_flatMap_escapeChar k.toList
    rw [String.ofList_toList] at token
    exact ⟨_, rfl, token⟩
  | none => exact ⟨_, rfl, Quoted.spells_unpaired⟩

theorem isGap_nil : IsGap [] := by simp [IsGap]

mutual

theorem spells_print : (v : Json) → v.isWritten → Spells (.value v) v.print
  | .null, _ => .null
  | .bool true, _ => .true
  | .bool false, _ => .false
  | .number n, h => .number (Numeral.spells_print (by simpa [isWritten] using h))
  | .text s, _ => spells_write s
  | .unpaired, _ => .text (t := none) Quoted.spells_unpaired
  | .array [], _ => .emptyArray isGap_nil
  | .object [], _ => .emptyObject isGap_nil
  | .array (v :: rest), h => by
    obtain ⟨s, same, spells⟩ := spells_printItems (v :: rest) nofun (by simpa [isWritten] using h)
    rw [printItems, List.cons.injEq] at same
    rw [print, same.2]
    exact .array spells
  | .object ((k, v) :: rest), h => by
    obtain ⟨s, same, spells⟩ :=
      spells_printMembers ((k, v) :: rest) nofun (by simpa [isWritten] using h)
    rw [printMembers, List.cons.injEq] at same
    rw [print, same.2]
    exact .object spells
  | .broken, h => by simp [isWritten] at h

theorem spells_printItems : (vs : List Json) → vs ≠ [] → areWritten vs →
    ∃ s, printItems vs = ',' :: (s ++ [']']) ∧ Spells (.items vs) s
  | [], h, _ => absurd rfl h
  | [v], _, h => by
    have value := spells_print v (by simpa [areWritten] using h)
    exact ⟨v.print, by simp [printItems], .lastItem value⟩
  | v :: w :: rest, _, h => by
    rw [areWritten, Bool.and_eq_true] at h
    obtain ⟨s, same, spells⟩ := spells_printItems (w :: rest) nofun h.2
    exact ⟨v.print ++ ',' :: s, by rw [printItems, same]; simp, .item (spells_print v h.1) spells⟩

theorem spells_printMembers : (ms : Members) → ms ≠ [] → membersAreWritten ms →
    ∃ s, printMembers ms = ',' :: (s ++ ['\x7d']) ∧ Spells (.members ms) s
  | [], h, _ => absurd rfl h
  | [(k, v)], _, h => by
    have value := spells_print v (by simpa [membersAreWritten] using h)
    obtain ⟨key, printed, name⟩ := exists_printKey k
    exact ⟨_, by simp [printMembers, printed], .lastMember isGap_nil name isGap_nil value⟩
  | (k, v) :: m :: rest, _, h => by
    rw [membersAreWritten, Bool.and_eq_true] at h
    obtain ⟨s, same, spells⟩ := spells_printMembers (m :: rest) nofun h.2
    obtain ⟨key, printed, name⟩ := exists_printKey k
    exact ⟨_, by rw [printMembers, same, printed]; simp,
      .member isGap_nil name isGap_nil (spells_print v h.1) spells⟩

end

end Writing

end Json
end Matchmaking
