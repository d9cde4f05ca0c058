import Matchmaking.Proofs.Engine.Conduct
import Matchmaking.Proofs.Store.Contract
/-! What the buckets answer with. Once all candidates are filed, each bucket holds those of one
history in the order in which they came; of those who are known, the one whose attempt is the
longest ago is taken, and ids decide between equals. -/
namespace Matchmaking

abbrev Filing := UserId × History

namespace Buckets

section Order

variable {x y z : Timestamp × UserId} {l : List (Timestamp × UserId)}

/-- Candidates are in order as attempts of these ids and times would be. -/
def stamp (x : Timestamp × UserId) : Attempt := ⟨x.2, 0, 0, .pending, x.1⟩

theorem precedes_trans (h : precedes x y) (k : precedes y z) : precedes x z :=
  Attempt.precedes_trans (stamp x) (stamp y) (stamp z) h k

theorem precedes_total (x y : Timestamp × UserId) : precedes x y || precedes y x :=
  Attempt.precedes_total (stamp x) (stamp y)

theorem precedes_refl (x : Timestamp × UserId) : precedes x x := Attempt.precedes_refl (stamp x)

theorem precedes_antisymm (h : precedes x y) (k : precedes y x) : x = y := by
  have le := Attempt.createdAt_le_of_precedes (a := stamp x) (b := stamp y) h
  have ge := Attempt.createdAt_le_of_precedes (a := stamp y) (b := stamp x) k
  have same := Attempt.id_eq_of_precedes (a := stamp x) (b := stamp y) h k
  exact Prod.ext (Timestamp.le_antisymm le ge) same

theorem oldest_eq_none : oldest l = none ↔ l = [] := by
  cases l with
  | nil => simp [oldest]
  | cons a rest =>
    cases found : oldest rest with
    | none => simp [oldest, found]
    | some b => by_cases first : precedes a b <;> simp [oldest, found, first]

theorem precedes_of_oldest (h : oldest l = some x) : ∀ y ∈ l, precedes x y := by
  induction l generalizing x with
  | nil => simp
  | cons a rest ih =>
    cases found : oldest rest with
    | none =>
      have alone : rest = [] := oldest_eq_none.1 found
      have same : a = x := by simpa [oldest, found] using h
      simp [alone, same, precedes_refl]
    | some b =>
      have after := ih found
      by_cases first : precedes a b
      · have same : a = x := by simpa [oldest, found, first] using h
        subst same
        refine List.forall_mem_cons.2 ⟨precedes_refl a, ?_⟩
        intro y mem
        exact precedes_trans first (after y mem)
      · have same : b = x := by simpa [oldest, found, first] using h
        subst same
        have before : precedes b a := by simpa [first] using precedes_total a b
        exact List.forall_mem_cons.2 ⟨before, after⟩

theorem oldest_eq_some : oldest l = some x ↔ x ∈ l ∧ ∀ y ∈ l, precedes x y := by
  constructor
  · intro h
    exact ⟨oldest_mem h, precedes_of_oldest h⟩
  · rintro ⟨mem, first⟩
    cases found : oldest l with
    | none => simp [oldest_eq_none.1 found] at mem
    | some y =>
      have before := precedes_of_oldest found x mem
      have after := first y (oldest_mem found)
      rw [precedes_antisymm before after]

end Order

section Filings

variable {fs : List Filing} {state : State} {v : UserId}

def file (b : Buckets) (fs : List Filing) : Buckets := fs.foldl (fun b f => b.insert f.1 f.2) b

def strangers (fs : List Filing) : List UserId :=
  fs.filterMap fun f => if f.2.isNone then some f.1 else none

def ended (state : State) (fs : List Filing) : List (Timestamp × UserId) :=
  fs.filterMap fun f => f.2.bind fun h => if h.1 = state then some (h.2, f.1) else none

theorem mem_strangers : v ∈ strangers fs ↔ (v, none) ∈ fs := by
  simp only [strangers, List.mem_filterMap, Option.isNone_iff_eq_none]
  grind

theorem strangers_eq_nil : strangers fs = [] ↔ ∀ w, (w, none) ∉ fs := by
  simp only [List.eq_nil_iff_forall_not_mem, mem_strangers]

theorem mem_ended {at_ : Timestamp} :
    (at_, v) ∈ ended state fs ↔ (v, some (state, at_)) ∈ fs := by
  simp only [ended, List.mem_filterMap, Option.bind_eq_some_iff]
  grind

theorem file_eq (b : Buckets) (fs : List Filing) :
    b.file fs = ⟨b.fresh ++ strangers fs, b.rejected ++ ended .mismatched fs,
      b.matched ++ ended .matched fs⟩ := by
  induction fs generalizing b with
  | nil => simp [file, strangers, ended]
  | cons f rest ih =>
    have step : b.file (f :: rest) = (b.insert f.1 f.2).file rest := rfl
    obtain ⟨w, history⟩ := f
    rw [step, ih]
    rcases history with _ | ⟨state, at_⟩
    · simp [insert, strangers, ended]
    · cases state <;> simp [insert, strangers, ended]

/-- Of all whose latest attempt stands there, that one's is the longest ago. -/
def IsLongestAgo (fs : List Filing) (state : State) (v : UserId) : Prop :=
  ∃ at_, (v, some (state, at_)) ∈ fs ∧
    ∀ w at', (w, some (state, at')) ∈ fs → precedes (at_, v) (at', w)

theorem oldest_ended : (oldest (ended state fs)).map Prod.snd = some v ↔
    IsLongestAgo fs state v := by
  simp only [Option.map_eq_some_iff, oldest_eq_some, Prod.exists, Prod.forall, mem_ended]
  constructor
  · rintro ⟨at_, _, ⟨mem, first⟩, rfl⟩
    exact ⟨at_, mem, fun w at' => first at' w⟩
  · rintro ⟨at_, mem, first⟩
    exact ⟨at_, v, ⟨mem, fun at' w => first w at'⟩, rfl⟩

theorem ended_eq_nil : ended state fs = [] ↔ ∀ w at_, (w, some (state, at_)) ∉ fs := by
  simp only [List.eq_nil_iff_forall_not_mem, Prod.forall, mem_ended]
  exact forall_comm

variable (index : Nat)

theorem answer_of_strangers (some_new : strangers fs ≠ []) :
    (file {} fs).answer index = (strangers fs)[min index ((strangers fs).length - 1)]? := by
  simp [file_eq, answer, some_new]

/-- Without a fresh candidate, the one rejected the longest ago is taken, and without any of these
the one matched the longest ago. -/
theorem answer_of_known (none_new : strangers fs = []) :
    (file {} fs).answer index = some v ↔ IsLongestAgo fs .mismatched v ∨
      (∀ w at_, (w, some (.mismatched, at_)) ∉ fs) ∧ IsLongestAgo fs .matched v := by
  have either : (file {} fs).answer index =
      ((oldest (ended .mismatched fs)).map Prod.snd).or
        ((oldest (ended .matched fs)).map Prod.snd) := by
    simp [file_eq, answer, none_new, Option.map_or]
  rw [either, Option.or_eq_some_iff, oldest_ended, oldest_ended, Option.map_eq_none_iff,
    oldest_eq_none, ended_eq_nil]

theorem admits_of_answer (h : (file {} fs).answer index = some v) :
    ∃ f ∈ fs, admits f.2 ∧ f.1 = v := by
  by_cases none_new : strangers fs = []
  · rcases (answer_of_known index none_new).1 h with ⟨_, mem, _⟩ | ⟨_, _, mem, _⟩
    · exact ⟨_, mem, rfl, rfl⟩
    · exact ⟨_, mem, rfl, rfl⟩
  · rw [answer_of_strangers index none_new] at h
    exact ⟨_, mem_strangers.1 (List.mem_of_getElem? h), rfl, rfl⟩

theorem mem_of_answer (h : (file {} fs).answer index = some v) : v ∈ fs.map Prod.fst := by
  obtain ⟨f, mem, -, rfl⟩ := admits_of_answer index h
  exact List.mem_map_of_mem mem

theorem answer_eq_none : (file {} fs).answer index = none ↔ ∀ f ∈ fs, ¬admits f.2 := by
  have empty : (file {} fs).answer index = none ↔
      strangers fs = [] ∧ ended .mismatched fs = [] ∧ ended .matched fs = [] := by
    by_cases none_new : strangers fs = []
    · simp [file_eq, answer, none_new, oldest_eq_none]
    · have inside : min index ((strangers fs).length - 1) < (strangers fs).length := by
        have := List.length_pos_iff.2 none_new
        omega
      rw [answer_of_strangers index none_new, List.getElem?_eq_none_iff]
      simp only [none_new, false_and, iff_false]
      omega
  rw [empty, strangers_eq_nil, ended_eq_nil, ended_eq_nil]
  constructor
  · rintro ⟨new, rejected, matched⟩ ⟨w, history⟩ mem
    rcases history with _ | ⟨state, at_⟩
    · exact absurd mem (new w)
    · cases state with
      | pending => simp [admits]
      | mismatched => exact absurd mem (rejected w at_)
      | matched => exact absurd mem (matched w at_)
  · intro refused
    refine ⟨fun w mem => refused _ mem rfl, ?_, ?_⟩
    · exact fun w at_ mem => refused _ mem rfl
    · exact fun w at_ mem => refused _ mem rfl

end Filings

end Buckets
end Matchmaking
