import Mathlib.Computability.DFA
import Mathlib.Computability.RegularExpressions
import Mathlib.Data.Fintype.Option
import Matchmaking.Proofs.Engine.Sequel
import Matchmaking.Proofs.Traffic.Orderly
/-! The language of stories. The table of what may follow what allows just the beginnings of the
words of a regular expression, and all along such a story it agrees with the stage that is read off
the last event alone. -/
namespace Matchmaking
namespace Happening

open RegularExpression

variable {last : Option Happening} {h : Happening} {story rest : List Happening}

section Grammar

def secondAnswered : RegularExpression Happening :=
  char secondLiked * char paired + char secondDisliked * char failed

def firstAnswered : RegularExpression Happening :=
  char firstDisliked * char failed + char firstLiked * ((1 + char shownToSecond) * secondAnswered)

/-- Stories from the beginning to the end. -/
def wholeStory : RegularExpression Happening :=
  char created * ((1 + char shownToFirst) * firstAnswered)

/-- What is still to be told after the last event. -/
def ahead : Option Happening → RegularExpression Happening
  | none => wholeStory
  | some created => (1 + char shownToFirst) * firstAnswered
  | some shownToFirst => firstAnswered
  | some firstLiked => (1 + char shownToSecond) * secondAnswered
  | some shownToSecond => secondAnswered
  | some firstDisliked | some secondDisliked => char failed
  | some secondLiked => char paired
  | some paired | some failed => 1

theorem matches'_deriv_char_mul (k h : Happening) (p : RegularExpression Happening) :
    ((char k * p).deriv h).matches' = if k = h then p.matches' else 0 := by
  by_cases same : k = h <;> simp [RegularExpression.deriv, matchEpsilon, same]

theorem matches'_deriv_optional_mul (k h : Happening) (p : RegularExpression Happening) :
    (((1 + char k) * p).deriv h).matches' =
      (if k = h then p.matches' else 0) + (p.deriv h).matches' := by
  by_cases same : k = h <;> simp [RegularExpression.deriv, matchEpsilon, same]

/-- The table of what may follow is the derivative of the grammar. -/
theorem matches'_deriv_ahead (last : Option Happening) (h : Happening) :
    ((ahead last).deriv h).matches' = if follows last h then (ahead (some h)).matches' else 0 := by
  rcases last with _ | last
  · cases h <;> simp [ahead, wholeStory, follows, matches'_deriv_char_mul]
  · cases last <;> cases h <;>
      simp [ahead, firstAnswered, secondAnswered, follows, matches'_deriv_char_mul,
        matches'_deriv_optional_mul]

theorem cons_mem_ahead :
    h :: rest ∈ (ahead last).matches' ↔
      follows last h = true ∧ rest ∈ (ahead (some h)).matches' := by
  rw [← rmatch_iff_matches', rmatch, rmatch_iff_matches', matches'_deriv_ahead]
  by_cases valid : follows last h = true <;> simp [valid, Language.notMem_zero]

theorem nil_mem_ahead : [] ∈ (ahead last).matches' ↔ last.any isTerminal := by
  rcases last with _ | last
  · decide
  · cases last <;> decide

theorem exists_mem_ahead (last : Option Happening) : ∃ rest, rest ∈ (ahead last).matches' := by
  rcases last with _ | last
  · exact ⟨[.created, .firstDisliked, .failed], by decide⟩
  · cases last with
    | created | shownToFirst => exact ⟨[.firstDisliked, .failed], by decide⟩
    | firstLiked | shownToSecond => exact ⟨[.secondDisliked, .failed], by decide⟩
    | firstDisliked | secondDisliked => exact ⟨[.failed], by decide⟩
    | secondLiked => exact ⟨[.paired], by decide⟩
    | paired | failed => exact ⟨[], by decide⟩

end Grammar

section Reviews

/-- The story may be told after the given last event. -/
def Continues (last : Option Happening) (story : List Happening) : Prop :=
  ∀ step ∈ review last story, step.1 = true

@[simp] theorem continues_nil : Continues last [] := by simp [Continues, review]

@[simp] theorem continues_cons :
    Continues last (h :: story) ↔ follows last h = true ∧ Continues (some h) story := by
  simp [Continues, review]

/-- What may be told is what comes first of something that lies ahead. -/
theorem continues_iff_exists_append :
    Continues last story ↔ ∃ rest, story ++ rest ∈ (ahead last).matches' := by
  induction story generalizing last with
  | nil => simpa using exists_mem_ahead last
  | cons h story ih => simp [ih, cons_mem_ahead]

theorem mem_ahead :
    story ∈ (ahead last).matches' ↔
      Continues last story ∧ (story.getLast?.or last).any isTerminal := by
  induction story generalizing last with
  | nil => simp [nil_mem_ahead]
  | cons h story ih => simp [cons_mem_ahead, ih, List.getLast?_cons, and_assoc]

theorem isNarrative_iff_continues : IsNarrative story ↔ Continues none story := Iff.rfl

theorem not_isNarrative_append (latest : story.getLast? = some h) (terminal : h.isTerminal)
    (next : Happening) : ¬IsNarrative (story ++ [next]) := by
  intro narrative
  have valid := (isNarrative_append_singleton.1 narrative).2
  rw [latest, not_follows_of_isTerminal terminal] at valid
  cases valid

theorem isNarrative_iff_exists_whole :
    IsNarrative story ↔ ∃ whole ∈ wholeStory.matches', story <+: whole := by
  rw [isNarrative_iff_continues, continues_iff_exists_append]
  constructor
  · rintro ⟨rest, whole⟩
    exact ⟨story ++ rest, whole, rest, rfl⟩
  · rintro ⟨_, whole, rest, rfl⟩
    exact ⟨rest, whole⟩

theorem mem_wholeStory_iff :
    story ∈ wholeStory.matches' ↔ IsNarrative story ∧ story.getLast?.any isTerminal := by
  have ended : story ∈ (ahead none).matches' ↔ _ := mem_ahead
  rw [Option.or_none] at ended
  exact ended

end Reviews

section Automaton

instance : Fintype Happening := .ofList all mem_all

/-- Remembers the last event, until one comes that may not follow. -/
def automaton : DFA Happening (Option (Option Happening)) where
  step state h := state.bind fun last => if follows last h then some (some h) else none
  start := some none
  accept := {state | state.isSome}

theorem automaton_step (last : Option Happening) (h : Happening) :
    automaton.step (some last) h = if follows last h then some (some h) else none := rfl

theorem evalFrom_none (story : List Happening) : automaton.evalFrom none story = none := by
  induction story with
  | nil => rfl
  | cons h story ih => exact ih

theorem isSome_evalFrom :
    (automaton.evalFrom (some last) story).isSome ↔ Continues last story := by
  induction story generalizing last with
  | nil => simp
  | cons h story ih =>
    rw [DFA.evalFrom_cons, automaton_step, continues_cons]
    by_cases valid : follows last h = true
    · simp [valid, ih]
    · simp [valid, evalFrom_none]

theorem isRegular_isNarrative : Language.IsRegular {story | IsNarrative story} :=
  ⟨_, inferInstance, automaton, Set.ext fun _ => isSome_evalFrom⟩

end Automaton

section Replay

def stages (story : List Happening) : List Stage := (none :: story.map some).map Stage.after

/-- Replay never goes back. -/
theorem Continues.pairwise_rank (continues : Continues last story) :
    (((last :: story.map some).map Stage.after).map Stage.rank).Pairwise (· ≤ ·) := by
  apply List.IsChain.pairwise
  induction story generalizing last with
  | nil => simp
  | cons h story ih =>
    obtain ⟨valid, continues⟩ := continues_cons.1 continues
    have goesOn : GoesOn last h := .inl valid
    exact .cons_cons goesOn.rank_le (ih continues)

theorem follows_swipe_iff {side : Role} {verdict : Verdict} (begun : last ≠ none) :
    follows last (swipe side verdict) = true ↔ (Stage.after last).awaiting = some side :=
  ⟨awaiting_of_follows_swipe, follows_swipe verdict begun⟩

end Replay

section Answers

def isAnswer : Happening → Bool
  | firstLiked | firstDisliked | secondLiked | secondDisliked => true
  | _ => false

/-- What the answers can have been by the time of the last event. A failure alone leaves open which
of the two it was that disliked the other. -/
def answersBy : Option Happening → List (List Happening)
  | none | some created | some shownToFirst => [[]]
  | some firstLiked | some shownToSecond => [[firstLiked]]
  | some firstDisliked => [[firstDisliked]]
  | some secondLiked | some paired => [[firstLiked, secondLiked]]
  | some secondDisliked => [[firstLiked, secondDisliked]]
  | some failed => [[firstDisliked], [firstLiked, secondDisliked]]

theorem append_mem_answersBy (valid : follows last h = true) :
    ∀ answers ∈ answersBy last, answers ++ [h].filter isAnswer ∈ answersBy (some h) := by
  rcases last with _ | last
  · cases h <;> first | decide | cases valid
  · cases last <;> cases h <;> first | decide | cases valid

/-- The last event of a narrative tells what the answers have been. -/
theorem IsNarrative.filter_mem_answersBy (narrative : IsNarrative story) :
    story.filter isAnswer ∈ answersBy story.getLast? := by
  induction story using List.reverseRecOn with
  | nil => decide
  | append_singleton story h ih =>
    obtain ⟨told, valid⟩ := isNarrative_append_singleton.1 narrative
    rw [List.filter_append, List.getLast?_concat]
    exact append_mem_answersBy valid _ (ih told)

theorem paired_iff_of_mem_answersBy (last : Option Happening) :
    ∀ answers ∈ answersBy last, follows last paired = true ∨ last = some paired ↔
      firstLiked ∈ answers ∧ secondLiked ∈ answers := by
  rcases last with _ | last
  · decide
  · cases last <;> decide

theorem failed_iff_of_mem_answersBy (last : Option Happening) :
    ∀ answers ∈ answersBy last, follows last failed = true ∨ last = some failed ↔
      answers.count firstDisliked + answers.count secondDisliked = 1 := by
  rcases last with _ | last
  · decide
  · cases last <;> decide

namespace IsNarrative

theorem reaches_paired_iff (narrative : IsNarrative story) :
    IsNarrative (story ++ [paired]) ∨ story.getLast? = some paired ↔
      firstLiked ∈ story ∧ secondLiked ∈ story := by
  have told := paired_iff_of_mem_answersBy _ _ narrative.filter_mem_answersBy
  simp only [List.mem_filter, isAnswer, and_true] at told
  rw [isNarrative_append_singleton, and_iff_right narrative, told]

theorem reaches_failed_iff (narrative : IsNarrative story) :
    IsNarrative (story ++ [failed]) ∨ story.getLast? = some failed ↔
      story.count firstDisliked + story.count secondDisliked = 1 := by
  have told := failed_iff_of_mem_answersBy _ _ narrative.filter_mem_answersBy
  rw [List.count_filter rfl, List.count_filter rfl] at told
  rw [isNarrative_append_singleton, and_iff_right narrative, told]

end IsNarrative

end Answers

/-- What is read off the last event agrees with what has been told and with what may follow. -/
structure IsInStep (story : List Happening) : Prop where
  forward : ((stages story).map Stage.rank).Pairwise (· ≤ ·)
  /-- The answers that may follow are those of the side that the stage waits for. -/
  answers : story ≠ [] → ∀ side verdict,
    IsNarrative (story ++ [swipe side verdict]) ↔ (Stage.after story.getLast?).awaiting = some side
  /-- A match is next, or has been told. -/
  paired : IsNarrative (story ++ [.paired]) ∨ story.getLast? = some .paired ↔
    firstLiked ∈ story ∧ secondLiked ∈ story
  failed : IsNarrative (story ++ [.failed]) ∨ story.getLast? = some .failed ↔
    story.count firstDisliked + story.count secondDisliked = 1
  closed : ∀ h, h.isTerminal → story.getLast? = some h →
    (h = .paired ↔ firstLiked ∈ story ∧ secondLiked ∈ story) ∧
      (h = .failed ↔ story.count firstDisliked + story.count secondDisliked = 1)

theorem IsNarrative.isInStep (narrative : IsNarrative story) : IsInStep story where
  forward := Continues.pairwise_rank narrative
  answers begun side verdict := by
    rw [isNarrative_append_singleton, and_iff_right narrative]
    exact follows_swipe_iff (mt List.getLast?_eq_none_iff.1 begun)
  paired := narrative.reaches_paired_iff
  failed := narrative.reaches_failed_iff
  closed h terminal latest := by
    have ended := not_isNarrative_append latest terminal
    have matched := narrative.reaches_paired_iff
    have failed := narrative.reaches_failed_iff
    rw [or_iff_right (ended _), latest, Option.some_inj] at matched failed
    exact ⟨matched, failed⟩

/-- Narratives form a regular language. They are the beginnings of whole stories, which are those
that have come to a closing event, and replay is in step with every one of them. -/
theorem narratives_are_regular :
    Language.IsRegular {story | IsNarrative story} ∧
    (∀ story, IsNarrative story ↔ ∃ whole ∈ wholeStory.matches', story <+: whole) ∧
    (∀ whole, whole ∈ wholeStory.matches' ↔
      IsNarrative whole ∧ whole.getLast?.any isTerminal) ∧
    ∀ story, IsNarrative story → IsInStep story :=
  ⟨isRegular_isNarrative, fun _ => isNarrative_iff_exists_whole, fun _ => mem_wholeStory_iff,
    fun _ narrative => narrative.isInStep⟩

/-- The second person is shown a like and dislikes it; before that, only the second may answer. -/
theorem narratives_are_regular_dislike :
    let story : List Happening := [.created, .firstLiked, .shownToSecond]
    let whole := story ++ [.secondDisliked, .failed]
    IsNarrative story ∧ IsNarrative (story ++ [swipe .second .like]) ∧
      ¬IsNarrative (story ++ [swipe .first .like]) ∧ whole ∈ wholeStory.matches' ∧
      stages whole = [.awaitingFirst, .awaitingFirst, .awaitingSecond, .awaitingSecond, .resolved,
        .resolved] ∧
      whole.count .firstDisliked + whole.count .secondDisliked = 1 ∧ IsInStep whole := by
  intro story whole
  obtain ⟨-, begins, ends, inStep⟩ := narratives_are_regular
  have ended : whole ∈ wholeStory.matches' := by decide
  have told : IsNarrative story := (begins story).2 ⟨whole, ended, by decide⟩
  have answers := (inStep story told).answers (by decide)
  have stepped := inStep whole ((ends whole).1 ended).1
  refine ⟨told, (answers .second .like).2 rfl, ?_, ended, rfl, ?_, stepped⟩
  · intro early
    cases (answers .first .like).1 early
  · exact (stepped.closed .failed rfl rfl).2.1 rfl

end Happening
end Matchmaking
