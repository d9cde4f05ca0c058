import Matchmaking.Proofs.Engine.Filing
import Matchmaking.Proofs.Engine.Transcript
/-! What a pick depends on. The same candidates may be filed in many orders, more than once, and
next to others who do not count. Where one is new, the pick is settled by chance and by the new ones
as they came; where none is, by the histories of those filed, in any order. -/
namespace Matchmaking
namespace Buckets

section Picks

variable {σ : Type} (chance : Collaborators σ) (x : σ) {fs fs' : List Filing} {v : UserId}

/-- The pick once these have been filed, one after the other. -/
def picked (fs : List Filing) : Report σ (Option UserId) := (file {} fs).pick.among chance x

def isNew (f : Filing) : Bool := f.2.isNone

def isMatched (f : Filing) : Bool := f.2.any fun h => h.1 = .matched

theorem strangers_filter_isNew (fs : List Filing) : strangers (fs.filter isNew) = strangers fs := by
  simp only [strangers, List.filterMap_filter]
  congr 1
  funext f
  by_cases new : f.2.isNone <;> simp [isNew, new]

theorem picked_of_strangers (some_new : strangers fs ≠ []) :
    picked chance x fs =
      let count := (strangers fs).length
      let (index, y) := chance x (.index count)
      ⟨[⟨.index count, index⟩], .ok (strangers fs)[min index (count - 1)]?, y⟩ := by
  have fresh : (file {} fs).fresh = strangers fs := by simp [file_eq]
  have asked : (file {} fs).pick =
      .call (.index (strangers fs).length) fun index => .done ((file {} fs).answer index) := by
    simp only [pick, question, fresh, if_neg some_new]
    rfl
  rw [picked, asked]
  simp only [Program.among, answer_of_strangers _ some_new]

theorem picked_of_known (none_new : strangers fs = []) :
    picked chance x fs = ⟨[], .ok ((file {} fs).answer 0), x⟩ := by
  have fresh : (file {} fs).fresh = [] := by simp [file_eq, none_new]
  simp only [picked, pick, question, fresh, if_pos]
  rfl

theorem result_picked (fs : List Filing) :
    ∃ index, (picked chance x fs).result = .ok ((file {} fs).answer index) := by
  by_cases none_new : strangers fs = []
  · exact ⟨0, by rw [picked_of_known chance x none_new]⟩
  · refine ⟨(chance x (.index (strangers fs).length)).1, ?_⟩
    rw [picked_of_strangers chance x none_new, answer_of_strangers _ none_new]

theorem picked_congr_of_strangers (some_new : strangers fs ≠ [])
    (same : strangers fs' = strangers fs) : picked chance x fs' = picked chance x fs := by
  have still : strangers fs' ≠ [] := by rwa [same]
  rw [picked_of_strangers chance x still, picked_of_strangers chance x some_new, same]

theorem isLongestAgo_congr {state : State}
    (same : ∀ w at_, (w, some (state, at_)) ∈ fs' ↔ (w, some (state, at_)) ∈ fs) :
    IsLongestAgo fs' state v ↔ IsLongestAgo fs state v := by
  simp only [IsLongestAgo, same]

theorem picked_congr_of_known (none_new : strangers fs = []) (none_new' : strangers fs' = [])
    (rejected : ∀ w at_, (w, some (.mismatched, at_)) ∈ fs' ↔ (w, some (.mismatched, at_)) ∈ fs)
    (matched : (∀ w at_, (w, some (.mismatched, at_)) ∉ fs) →
      ∀ w at_, (w, some (.matched, at_)) ∈ fs' ↔ (w, some (.matched, at_)) ∈ fs) :
    picked chance x fs' = picked chance x fs := by
  have same : (file {} fs').answer 0 = (file {} fs).answer 0 := by
    ext v
    rw [answer_of_known 0 none_new', answer_of_known 0 none_new, isLongestAgo_congr rejected]
    simp only [rejected]
    refine or_congr_right (and_congr_right ?_)
    intro unrejected
    exact isLongestAgo_congr (matched unrejected)
  rw [picked_of_known chance x none_new', picked_of_known chance x none_new, same]

theorem picked_perm (none_new : strangers fs = []) (perm : fs'.Perm fs) :
    picked chance x fs' = picked chance x fs := by
  refine picked_congr_of_known chance x none_new ?_ ?_ ?_
  · rw [strangers_eq_nil] at none_new ⊢
    intro w mem
    exact none_new w (perm.mem_iff.1 mem)
  · exact fun w at_ => perm.mem_iff
  · exact fun _ w at_ => perm.mem_iff

theorem picked_congr_of_rejected {w : UserId} {at_ : Timestamp} (none_new : strangers fs = [])
    (rejected : (w, some (.mismatched, at_)) ∈ fs)
    (perm : (fs'.filter (!isMatched ·)).Perm (fs.filter (!isMatched ·))) :
    picked chance x fs' = picked chance x fs := by
  have unmatched (f : Filing) (unmatched : isMatched f = false) : f ∈ fs' ↔ f ∈ fs := by
    have kept := perm.mem_iff (a := f)
    simpa [List.mem_filter, unmatched] using kept
  refine picked_congr_of_known chance x none_new ?_ ?_ ?_
  · rw [strangers_eq_nil] at none_new ⊢
    intro w mem
    exact none_new w ((unmatched (w, none) rfl).1 mem)
  · exact fun w at_ => unmatched (w, some (.mismatched, at_)) rfl
  · exact fun unrejected => absurd rejected (unrejected w at_)

theorem insert_of_not_admits {history : History} (refused : ¬admits history) (b : Buckets) :
    b.insert v history = b := by
  rcases history with _ | ⟨state, at_⟩
  · exact absurd rfl refused
  · cases state with
    | pending => rfl
    | matched => exact absurd rfl refused
    | mismatched => exact absurd rfl refused

theorem file_filter_admits (b : Buckets) (fs : List Filing) :
    b.file (fs.filter (admits ·.2)) = b.file fs := by
  induction fs generalizing b with
  | nil => rfl
  | cons f rest ih =>
    have step : b.file (f :: rest) = (b.insert f.1 f.2).file rest := rfl
    by_cases admitted : admits f.2
    · rw [List.filter_cons_of_pos (p := fun f : Filing => admits f.2) admitted, step]
      exact ih (b.insert f.1 f.2)
    · rw [List.filter_cons_of_neg (p := fun f : Filing => admits f.2) admitted, step,
        insert_of_not_admits admitted]
      exact ih b

/-- A pick depends only on what matters. It is an admitted candidate, or none when no candidate is
admitted. Where one is new, those who are not may come, go and move among the others. Where none is,
chance is not asked, the order does not matter, and those of a match do not as long as there is a
mismatch. Candidates that are not admitted never matter. -/
theorem picks_depend_on_histories (fs : List Filing) :
    (∃ chosen, (picked chance x fs).result = .ok chosen ∧
      (chosen = none ↔ ∀ f ∈ fs, ¬admits f.2) ∧
      ∀ v, chosen = some v → ∃ f ∈ fs, admits f.2 ∧ f.1 = v) ∧
    ((∃ f ∈ fs, isNew f) → ∀ fs' : List Filing, fs'.filter isNew = fs.filter isNew →
      picked chance x fs' = picked chance x fs) ∧
    ((∀ f ∈ fs, ¬isNew f) →
      (picked chance x fs).said = [] ∧ (picked chance x fs).state = x ∧
      (∀ fs' : List Filing, fs'.Perm fs → picked chance x fs' = picked chance x fs) ∧
      ∀ w at_, (w, some (.mismatched, at_)) ∈ fs → ∀ fs' : List Filing,
        (fs'.filter (!isMatched ·)).Perm (fs.filter (!isMatched ·)) →
        picked chance x fs' = picked chance x fs) ∧
    (∀ (b : Buckets) (v : UserId) (history : History), ¬admits history → b.insert v history = b) ∧
    ∀ fs' : List Filing, fs'.filter (admits ·.2) = fs.filter (admits ·.2) →
      file {} fs' = file {} fs ∧ picked chance x fs' = picked chance x fs := by
  refine ⟨?_, ?_, ?_, ?_, ?_⟩
  · obtain ⟨index, told⟩ := result_picked chance x fs
    exact ⟨_, told, answer_eq_none index, fun v found => admits_of_answer index found⟩
  · rintro ⟨⟨w, history⟩, mem, new⟩ fs' same
    obtain rfl : history = none := by simpa [isNew] using new
    have some_new : strangers fs ≠ [] := List.ne_nil_of_mem (mem_strangers.2 mem)
    refine picked_congr_of_strangers chance x some_new ?_
    rw [← strangers_filter_isNew fs', same, strangers_filter_isNew]
  · intro known
    have none_new : strangers fs = [] := strangers_eq_nil.2 fun w mem => known _ mem rfl
    refine ⟨?_, ?_, ?_, ?_⟩
    · rw [picked_of_known chance x none_new]
    · rw [picked_of_known chance x none_new]
    · exact fun fs' perm => picked_perm chance x none_new perm
    · exact fun w at_ rejected fs' perm =>
        picked_congr_of_rejected chance x none_new rejected perm
  · exact fun b v history refused => insert_of_not_admits refused b
  · intro fs' same
    have filed : file {} fs' = file {} fs := by
      rw [← file_filter_admits {} fs', same, file_filter_admits]
    exact ⟨filed, by rw [picked, filed, picked]⟩

/-- Chance answers with an index beyond the end. Of two who are new the last one is picked, whatever
is said of the others; of two mismatches of one time the one of the lower id, in any order. -/
theorem picks_depend_on_histories_beyond :
    let chance : Collaborators Nat := fun asked r =>
      match r with
      | .index _ => ((9 : Nat), asked + 1)
      | r => (r.refusal (.backend "down"), asked)
    let met : List Filing := [(7, some (.mismatched, ⟨60, 0⟩)), (8, some (.matched, ⟨0, 0⟩)),
      (6, some (.mismatched, ⟨60, 0⟩)), (5, some (.pending, ⟨0, 0⟩))]
    let new : List Filing := [(3, none), (4, none)]
    picked chance 0 new = ⟨[⟨.index 2, (9 : Nat)⟩], .ok (some 4), 1⟩ ∧
      picked chance 0 ((3, none) :: met ++ [(4, none)]) = picked chance 0 new ∧
      (picked chance 0 met).said = [] ∧ (picked chance 0 met).result = .ok (some 6) ∧
      picked chance 0 met.reverse = picked chance 0 met ∧
      picked chance 0 ((9, some (.matched, ⟨0, 0⟩)) :: met.eraseIdx 1) = picked chance 0 met ∧
      picked chance 0 (met.eraseIdx 3) = picked chance 0 met ∧
      insert {} 5 (some (.pending, ⟨0, 0⟩)) = {} := by
  intro chance met new
  obtain ⟨-, amid, -, -, -⟩ := picks_depend_on_histories chance 0 new
  obtain ⟨-, -, known, refused, rejected⟩ := picks_depend_on_histories chance 0 met
  obtain ⟨unasked, -, reordered, unmatched⟩ := known (by decide)
  refine ⟨rfl, amid (by decide) _ rfl, unasked, rfl, ?_, ?_, ?_, ?_⟩
  · exact reordered _ met.reverse_perm
  · exact unmatched 7 ⟨60, 0⟩ (by decide) _ (.refl _)
  · exact (rejected _ rfl).2
  · exact refused {} 5 _ (by decide)

end Picks
end Buckets
end Matchmaking
