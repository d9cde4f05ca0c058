/-! Sorting by insertion, after a test of which of two values may stand first. Values that are equal
under the test keep their order. -/
namespace Matchmaking
namespace Sorting

variable {α : Type} (before : α → α → Bool)

def insert (a : α) : List α → List α
  | [] => [a]
  | b :: rest => if before a b then a :: b :: rest else b :: insert a rest

def sort : List α → List α
  | [] => []
  | a :: rest => insert before a (sort rest)

variable {before}

@[simp] theorem mem_insert {a b : α} {l : List α} : b ∈ insert before a l ↔ b = a ∨ b ∈ l := by
  induction l with
  | nil => simp [insert]
  | cons c rest ih =>
    unfold insert
    split
    · simp
    · simp only [List.mem_cons, ih]
      constructor
      · rintro (h | h | h) <;> simp [h]
      · rintro (h | h | h) <;> simp [h]

@[simp] theorem mem_sort {a : α} {l : List α} : a ∈ sort before l ↔ a ∈ l := by
  induction l with
  | nil => simp [sort]
  | cons b rest ih => simp [sort, ih]

theorem pairwise_insert (trans : ∀ a b c, before a b → before b c → before a c)
    (total : ∀ a b, before a b || before b a) (a : α) {l : List α}
    (sorted : l.Pairwise (fun a b => before a b)) :
    (insert before a l).Pairwise (fun a b => before a b) := by
  induction l with
  | nil => simp [insert]
  | cons b rest ih =>
    have first := List.pairwise_cons.1 sorted
    unfold insert
    split
    · next h =>
      refine List.pairwise_cons.2 ⟨?_, sorted⟩
      intro c mem
      rcases List.mem_cons.1 mem with rfl | mem
      · exact h
      · exact trans a b c h (first.1 c mem)
    · next h =>
      refine List.pairwise_cons.2 ⟨?_, ih first.2⟩
      intro c mem
      rcases mem_insert.1 mem with rfl | mem
      · have either := total c b
        simpa [h] using either
      · exact first.1 c mem

theorem pairwise_sort (trans : ∀ a b c, before a b → before b c → before a c)
    (total : ∀ a b, before a b || before b a) (l : List α) :
    (sort before l).Pairwise (fun a b => before a b) := by
  induction l with
  | nil => simp [sort]
  | cons a rest ih => exact pairwise_insert trans total a ih

end Sorting
end Matchmaking
