import Mathlib.Data.List.Nodup
import Matchmaking.Store.Serve
import Matchmaking.Proofs.Store.Story
/-! The contract of the stores: which replies a request may get from a store with that content, and
what the store holds afterwards. Ids and times are left open as far as they are new. The store in
memory keeps the contract. -/
namespace Matchmaking
namespace Store

/-- A pending attempt in which the first person likes that second one and waits. -/
structure IsLiker (s : Store) (second : UserId) (a : Attempt) : Prop where
  mem : a ∈ s.attempts
  second : a.second = second
  pending : a.isPending
  waits : s.awaitsReply a

/-- A pending attempt that waits for its first person. -/
structure IsProposal (s : Store) (a : Attempt) : Prop where
  mem : a ∈ s.attempts
  pending : a.isPending
  begun : s.stage a.id = .awaitingFirst

structure Admits (s : Store) (a : Attempt) : Prop where
  pending : a.isPending
  fresh : ∀ b ∈ s.attempts, b.id ≠ a.id
  free : ∀ b ∈ s.attempts, b.joins a.first a.second → ¬b.isPending

/-- One request answered: the reply and the store after it. -/
inductive Serves (s : Store) : (r : Request) → r.Reply → Store → Prop
  | profile (u : UserId) : Serves s (.profile u) (.ok (s.profileOf? u)) s
  | preferences (u : UserId) : Serves s (.preferences u) (.ok (s.preferencesOf? u)) s
  | validUsers {us : List UserId}
      (all : ∀ u, u ∈ us ↔ (s.profileOf? u).isSome ∧ (s.preferencesOf? u).isSome) :
      Serves s .validUsers (.ok us) s
  | opens {u v : UserId} (id : AttemptId) (createdAt : Timestamp) (clock : Int)
      (free : ∀ a ∈ s.attempts, a.joins u v → ¬a.isPending) (fresh : ∀ a ∈ s.attempts, a.id ≠ id) :
      Serves s (.createAttempt u v) (.ok ⟨id, u, v, .pending, createdAt⟩)
        (s.withAttempt ⟨id, u, v, .pending, createdAt⟩ clock)
  | conflicts {u v : UserId} {a : Attempt} (mem : a ∈ s.attempts) (joins : a.joins u v)
      (pending : a.isPending) :
      Serves s (.createAttempt u v) (.error (.pendingConflict u v)) s
  | pendingOfPair {u v : UserId} {a : Attempt} (mem : a ∈ s.attempts) (joins : a.joins u v)
      (pending : a.isPending) : Serves s (.pendingOfPair u v) (.ok (some a)) s
  | nonePending {u v : UserId} (absent : ∀ a ∈ s.attempts, a.joins u v → ¬a.isPending) :
      Serves s (.pendingOfPair u v) (.ok none) s
  | latestOfPair {u v : UserId} {a : Attempt} (mem : a ∈ s.attempts) (joins : a.joins u v)
      (latest : ∀ b ∈ s.attempts, b.joins u v → b.createdAt ≤ a.createdAt) :
      Serves s (.latestOfPair u v) (.ok (some a)) s
  | neverPaired {u v : UserId} (absent : ∀ a ∈ s.attempts, ¬a.joins u v) :
      Serves s (.latestOfPair u v) (.ok none) s
  | finishes {a : Attempt} (state : State) (mem : a ∈ s.attempts) (pending : a.isPending) :
      Serves s (.finishAttempt a.id state) (.ok ()) (s.setState a.id state)
  | notPending {id : AttemptId} (state : State)
      (absent : ∀ a ∈ s.attempts, a.id = id → ¬a.isPending) :
      Serves s (.finishAttempt id state) (.error (.notPending id)) s
  | pendingOf {u : UserId} {as : List Attempt}
      (all : ∀ a, a ∈ as ↔ a ∈ s.attempts ∧ a.first = u ∧ a.isPending) :
      Serves s (.pendingOf u) (.ok as) s
  | likerOf {u : UserId} {a : Attempt} (liker : s.IsLiker u a)
      (oldest : ∀ b, s.IsLiker u b → a.createdAt ≤ b.createdAt) :
      Serves s (.likerOf u) (.ok (some a)) s
  | noLiker {u : UserId} (absent : ∀ a, ¬s.IsLiker u a) : Serves s (.likerOf u) (.ok none) s
  | appends {id : AttemptId} {h : Happening} (number : Nat) (createdAt : Timestamp) (clock : Int)
      (fresh : ∀ e ∈ s.log, e.id ≠ number) :
      Serves s (.appendEvent id h) (.ok ⟨number, id, createdAt, h⟩)
        (s.withEvent ⟨number, id, createdAt, h⟩ clock)
  | lastEvent (id : AttemptId) : Serves s (.lastEvent id) (.ok (s.lastEvent? id)) s
  | photos (u : UserId) : Serves s (.photos u) (.ok (s.photosOf u)) s
  | photoLink (key : String) (reply : Except StoreError String) :
      Serves s (.photoLink key) reply s
  | createChat (number : Nat) (u v : UserId) :
      Serves s (.createChat u v) (.ok ⟨number, u, v⟩) (s.withChat ⟨number, u, v⟩)
  | notifyLiked (u : UserId) (notice : Notice) (delivered : Bool) :
      Serves s (.notifyLiked u notice) delivered
        (s.recordDelivery ⟨.liked, u, notice, delivered⟩)
  | notifyMatch (u : UserId) (notice : Notice) (delivered : Bool) :
      Serves s (.notifyMatch u notice) delivered
        (s.recordDelivery ⟨.matched, u, notice, delivered⟩)
  | index (count index : Nat) : Serves s (.index count) index s
  | health (healthy : Bool) : Serves s .health healthy s

theorem Serves.samePeople {s s' : Store} {r : Request} {reply : r.Reply}
    (served : s.Serves r reply s') : s.SamePeople s' := by
  cases served <;> exact ⟨rfl, rfl, rfl⟩

structure IsNumbered (s : Store) : Prop where
  nodup : (s.attempts.map Attempt.id).Nodup
  id_le : ∀ a ∈ s.attempts, a.id ≤ s.attempts.length
  number_le : ∀ e ∈ s.log, e.id ≤ s.log.length

theorem IsNumbered.eq_of_id {s : Store} (h : s.IsNumbered) {a b : Attempt} (ha : a ∈ s.attempts)
    (hb : b ∈ s.attempts) (same : a.id = b.id) : a = b :=
  List.inj_on_of_nodup_map h.nodup ha hb same

end Store

namespace Attempt

theorem precedes_trans (a b c : Attempt) (h : a.precedes b) (k : b.precedes c) : a.precedes c := by
  unfold precedes at *
  by_cases hab : a.createdAt = b.createdAt
  · by_cases hbc : b.createdAt = c.createdAt
    · simp only [hab, hbc, if_true, decide_eq_true_eq] at *
      exact Nat.le_trans h k
    · simp only [hab, hbc, if_true, if_false] at *
      exact k
  · by_cases hbc : b.createdAt = c.createdAt
    · rw [if_neg hab] at h
      have hac : a.createdAt ≠ c.createdAt := by
        rw [← hbc]
        exact hab
      rw [if_neg hac, ← hbc]
      exact h
    · rw [if_neg hab, decide_eq_true_eq] at h
      rw [if_neg hbc, decide_eq_true_eq] at k
      have hac : a.createdAt ≠ c.createdAt := by
        intro same
        rw [same] at h
        exact hbc (Timestamp.le_antisymm k h)
      rw [if_neg hac, decide_eq_true_eq]
      exact Timestamp.le_trans h k

theorem precedes_total (a b : Attempt) : a.precedes b || b.precedes a := by
  unfold precedes
  by_cases same : a.createdAt = b.createdAt
  · simp only [same, if_true, Bool.or_eq_true, decide_eq_true_eq]
    exact Nat.le_total a.id b.id
  · simpa [same, Ne.symm same] using Timestamp.le_total a.createdAt b.createdAt

theorem precedes_refl (a : Attempt) : a.precedes a := by
  simpa using precedes_total a a

theorem id_eq_of_precedes {a b : Attempt} (before : a.precedes b) (after : b.precedes a) :
    a.id = b.id := by
  unfold precedes at before after
  by_cases same : a.createdAt = b.createdAt
  · simp only [same, if_true, decide_eq_true_eq] at before after
    exact Nat.le_antisymm before after
  · rw [if_neg same, decide_eq_true_eq] at before
    rw [if_neg (Ne.symm same), decide_eq_true_eq] at after
    exact absurd (Timestamp.le_antisymm before after) same

theorem createdAt_le_of_precedes {a b : Attempt} (h : a.precedes b) :
    a.createdAt ≤ b.createdAt := by
  unfold precedes at h
  split at h
  · next same => rw [same]; exact Timestamp.le_refl _
  · exact of_decide_eq_true h

end Attempt

namespace Store

theorem mem_inOrder {a : Attempt} {as : List Attempt} : a ∈ inOrder as ↔ a ∈ as := Sorting.mem_sort

theorem pairwise_inOrder (as : List Attempt) : (inOrder as).Pairwise fun a b => a.precedes b :=
  Sorting.pairwise_sort Attempt.precedes_trans Attempt.precedes_total as

theorem latest?_eq_some {as : List Attempt} {a : Attempt} (h : latest? as = some a) :
    a ∈ as ∧ ∀ b ∈ as, b.createdAt ≤ a.createdAt := by
  obtain ⟨front, split⟩ := List.getLast?_eq_some_iff.1 h
  have sorted := pairwise_inOrder as
  rw [split] at sorted
  constructor
  · rw [← mem_inOrder, split]
    simp
  · intro b mem
    rw [← mem_inOrder, split] at mem
    rcases List.mem_append.1 mem with mem | mem
    · exact Attempt.createdAt_le_of_precedes ((List.pairwise_append.1 sorted).2.2 b mem a (by simp))
    · rw [List.mem_singleton.1 mem]
      exact Timestamp.le_refl _

theorem latest?_eq_none {as : List Attempt} : latest? as = none ↔ as = [] := by
  rw [latest?, List.getLast?_eq_none_iff]
  constructor
  · intro h
    apply List.eq_nil_iff_forall_not_mem.2
    intro a mem
    rw [← mem_inOrder, h] at mem
    simp at mem
  · intro empty
    rw [empty]
    rfl

theorem head?_inOrder_eq_some {as : List Attempt} {a : Attempt} (h : (inOrder as).head? = some a) :
    a ∈ as ∧ ∀ b ∈ as, a.precedes b := by
  obtain ⟨rest, split⟩ := List.head?_eq_some_iff.1 h
  have sorted := pairwise_inOrder as
  rw [split] at sorted
  constructor
  · rw [← mem_inOrder, split]
    simp
  · intro b mem
    rw [← mem_inOrder, split] at mem
    rcases List.mem_cons.1 mem with rfl | mem
    · exact Attempt.precedes_refl b
    · exact (List.pairwise_cons.1 sorted).1 b mem

theorem head?_inOrder_eq_none {as : List Attempt} : (inOrder as).head? = none ↔ as = [] := by
  rw [List.head?_eq_none_iff]
  constructor
  · intro h
    apply List.eq_nil_iff_forall_not_mem.2
    intro a mem
    rw [← mem_inOrder, h] at mem
    simp at mem
  · intro empty
    rw [empty]
    rfl

theorem pendingOfPair?_serves (s : Store) (u v : UserId) :
    s.Serves (.pendingOfPair u v) (.ok (s.pendingOfPair? u v)) s := by
  cases found : s.pendingOfPair? u v with
  | none =>
    refine .nonePending ?_
    intro a mem joins pending
    have empty := latest?_eq_none.1 found
    simp only [List.filter_eq_nil_iff, Bool.and_eq_true, not_and] at empty
    exact empty a mem joins pending
  | some a =>
    obtain ⟨mem, _⟩ := latest?_eq_some found
    simp only [List.mem_filter, Bool.and_eq_true] at mem
    exact .pendingOfPair mem.1 mem.2.1 mem.2.2

theorem latestOfPair?_serves (s : Store) (u v : UserId) :
    s.Serves (.latestOfPair u v) (.ok (s.latestOfPair? u v)) s := by
  cases found : s.latestOfPair? u v with
  | none =>
    refine .neverPaired ?_
    have empty := latest?_eq_none.1 found
    simpa only [List.filter_eq_nil_iff] using empty
  | some a =>
    obtain ⟨mem, latest⟩ := latest?_eq_some found
    obtain ⟨stored, joins⟩ := List.mem_filter.1 mem
    exact .latestOfPair stored joins fun b hb joined => latest b (List.mem_filter.2 ⟨hb, joined⟩)

theorem isLiker_iff {s : Store} {u : UserId} {a : Attempt} :
    s.IsLiker u a ↔
      a ∈ s.attempts.filter fun a => a.second == u && a.isPending && s.awaitsReply a := by
  simp only [List.mem_filter, Bool.and_eq_true, beq_iff_eq]
  constructor
  · intro h
    exact ⟨h.mem, ⟨h.second, h.pending⟩, h.waits⟩
  · intro listed
    obtain ⟨mem, ⟨second, pending⟩, waits⟩ := listed
    exact ⟨mem, second, pending, waits⟩

theorem likerOf?_serves (s : Store) (u : UserId) :
    s.Serves (.likerOf u) (.ok (s.likerOf? u)) s := by
  cases found : s.likerOf? u with
  | none =>
    refine .noLiker ?_
    intro a liker
    have mem := isLiker_iff.1 liker
    rw [head?_inOrder_eq_none.1 found] at mem
    simp at mem
  | some a =>
    obtain ⟨mem, oldest⟩ := head?_inOrder_eq_some found
    refine .likerOf (isLiker_iff.2 mem) ?_
    intro b liker
    exact Attempt.createdAt_le_of_precedes (oldest b (isLiker_iff.1 liker))

theorem pendingOf_serves (s : Store) (u : UserId) :
    s.Serves (.pendingOf u) (.ok (s.pendingOf u)) s := by
  refine .pendingOf ?_
  intro a
  simp [Store.pendingOf, mem_inOrder]

theorem validUsers_serves (s : Store) : s.Serves .validUsers (.ok s.validUsers) s := by
  refine .validUsers ?_
  intro u
  simp [Store.validUsers, profileOf?]

theorem createAttempt_serves {s : Store} (numbered : s.IsNumbered) (u v : UserId) :
    s.Serves (.createAttempt u v) (s.createAttempt u v).1 (s.createAttempt u v).2 := by
  by_cases taken : ∃ a ∈ s.attempts, a.joins u v ∧ a.isPending
  · rw [createAttempt_of_pending taken]
    obtain ⟨a, mem, joins, pending⟩ := taken
    exact .conflicts mem joins pending
  · have free : ¬(s.attempts.any fun a => a.joins u v && a.isPending) = true := by
      simpa using taken
    rw [createAttempt, if_neg free]
    refine .opens _ _ _ ?_ ?_
    · intro a mem joins pending
      exact taken ⟨a, mem, joins, pending⟩
    · intro a mem same
      have le := numbered.id_le a mem
      rw [same] at le
      exact Nat.not_succ_le_self _ le

theorem finishAttempt_serves {s : Store} (numbered : s.IsNumbered) (id : AttemptId)
    (state : State) :
    s.Serves (.finishAttempt id state) (s.finishAttempt id state).1
      (s.finishAttempt id state).2 := by
  unfold finishAttempt
  split
  · next h =>
    obtain ⟨a, found, pending⟩ := (Option.any_eq_true _ _).1 h
    have mem := List.mem_of_find?_eq_some found
    have same : a.id = id := by simpa using List.find?_some found
    subst same
    exact .finishes state mem pending
  · next h =>
    refine .notPending state ?_
    intro a mem same pending
    apply h
    have found : s.attempt? id = some a :=
      (attempt?_eq_some fun _ mem _ mem' => numbered.eq_of_id mem mem').2 ⟨mem, same⟩
    rw [found]
    exact pending

/-- The store in memory keeps the contract. -/
theorem serves_serve {s : Store} (numbered : s.IsNumbered) (around : Surroundings) (r : Request) :
    s.Serves r (s.serve around r).1 (s.serve around r).2 := by
  cases r with
  | profile u => exact .profile u
  | preferences u => exact .preferences u
  | validUsers => exact s.validUsers_serves
  | createAttempt u v => exact createAttempt_serves numbered u v
  | pendingOfPair u v => exact s.pendingOfPair?_serves u v
  | latestOfPair u v => exact s.latestOfPair?_serves u v
  | finishAttempt id state => exact finishAttempt_serves numbered id state
  | pendingOf u => exact s.pendingOf_serves u
  | likerOf u => exact s.likerOf?_serves u
  | appendEvent id h =>
    refine .appends _ _ _ ?_
    intro e mem same
    have le := numbered.number_le e mem
    rw [same] at le
    exact Nat.not_succ_le_self _ le
  | lastEvent id => exact .lastEvent id
  | photos u => exact .photos u
  | photoLink key => exact .photoLink key _
  | createChat u v => exact .createChat _ u v
  | notifyLiked u notice => exact .notifyLiked u notice _
  | notifyMatch u notice => exact .notifyMatch u notice _
  | index count => exact .index count _
  | health => exact .health _

theorem IsNumbered.serve {s : Store} (numbered : s.IsNumbered) (around : Surroundings)
    (r : Request) : (s.serve around r).2.IsNumbered := by
  cases r
  case createAttempt u v =>
    by_cases taken : ∃ a ∈ s.attempts, a.joins u v ∧ a.isPending
    · rw [Store.serve, createAttempt_of_pending taken]
      exact numbered
    · have free : ¬(s.attempts.any fun a => a.joins u v && a.isPending) = true := by
        simpa using taken
      rw [Store.serve, createAttempt, if_neg free]
      refine ⟨?_, ?_, numbered.number_le⟩
      · simp only [addAttempt, attempts_tick, List.map_append, List.map_cons, List.map_nil]
        refine List.nodup_append.2 ⟨numbered.nodup, by simp, ?_⟩
        rintro id mem other other_mem rfl
        obtain ⟨a, stored, rfl⟩ := List.mem_map.1 mem
        have le := numbered.id_le a stored
        simp only [List.mem_singleton] at other_mem
        rw [other_mem] at le
        exact Nat.not_succ_le_self _ le
      · simp only [addAttempt, attempts_tick, List.length_append, List.length_singleton]
        intro a mem
        rcases List.mem_append.1 mem with mem | mem
        · exact Nat.le_succ_of_le (numbered.id_le a mem)
        · cases List.mem_singleton.1 mem
          exact Nat.le_refl _
  case appendEvent id h =>
    refine ⟨numbered.nodup, numbered.id_le, ?_⟩
    intro e mem
    simp only [Store.serve, Store.appendEvent, log_tick] at mem ⊢
    rw [List.length_append, List.length_singleton]
    rcases List.mem_append.1 mem with mem | mem
    · exact Nat.le_succ_of_le (numbered.number_le e mem)
    · cases List.mem_singleton.1 mem
      exact Nat.le_refl _
  case finishAttempt id state =>
    rw [Store.serve, Store.finishAttempt]
    split
    · refine ⟨?_, ?_, numbered.number_le⟩
      · have ids : (s.setState id state).attempts.map Attempt.id = s.attempts.map Attempt.id := by
          simp only [setState, List.map_map]
          apply List.map_congr_left
          intro a _
          by_cases same : a.id = id <;> simp [same]
        rw [ids]
        exact numbered.nodup
      · intro a mem
        rw [length_setState]
        obtain ⟨b, stored, rfl⟩ := mem_attempts_setState.1 mem
        split
        · exact numbered.id_le b stored
        · exact numbered.id_le b stored
    · exact numbered
  all_goals exact ⟨numbered.nodup, numbered.id_le, numbered.number_le⟩

end Store
end Matchmaking
