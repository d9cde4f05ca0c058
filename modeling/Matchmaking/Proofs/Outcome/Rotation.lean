import Matchmaking.Proofs.Outcome.Prospect
/-! Rejected candidates come back. As long as no attempt waits for the person, the candidates who
are new are shown first, and then, over and over, the rejected ones, in the order in which they were
rejected. The order is kept nowhere: it comes of the times of the latest attempts. -/
namespace Matchmaking

section Turns

variable {among unmet : Finset UserId} {queue shown : List UserId} {v w : UserId}

/-- Of the list of people shown, each stretch as long as the list of candidates is a permutation of
these, and each entry is that of so many rounds before. -/
structure IsRotation (among : Finset UserId) (shown : List UserId) : Prop where
  window : ∀ before round after, shown = before ++ round ++ after → round.length = among.card →
    round.Nodup ∧ ∀ v ∈ round, v ∈ among
  period : ∀ i v, shown[i + among.card]? = some v → shown[i]? = some v

theorem isRotation_nil (among : Finset UserId) : IsRotation among [] where
  window before round after split _ := by
    obtain ⟨none, _⟩ := List.append_eq_nil_iff.1 split.symm
    simp [(List.append_eq_nil_iff.1 none).2]
  period i v found := by simp at found

/-- The candidate is new, or none is and it is the first in the queue. -/
def IsDue (unmet : Finset UserId) (queue : List UserId) (v : UserId) : Prop :=
  v ∈ unmet ∨ unmet = ∅ ∧ queue.head? = some v

/-- The new candidates, the others in the order of their turns, and the list of people shown so
far. -/
structure Rota (among unmet : Finset UserId) (queue shown : List UserId) : Prop where
  nodup : queue.Nodup
  mem : ∀ v, v ∈ among ↔ v ∈ unmet ∨ v ∈ queue
  apart : ∀ v ∈ queue, v ∉ unmet
  /-- As far as the two go back, those shown are those queued. -/
  trail : shown <:+ queue ∨ unmet = ∅ ∧ queue <:+ shown

namespace Rota

variable (rota : Rota among unmet queue shown)

include rota

theorem card : among.card = unmet.card + queue.length := by
  have all : among = unmet ∪ queue.toFinset := by
    ext v
    rw [Finset.mem_union, List.mem_toFinset]
    exact rota.mem v
  have disjoint : Disjoint unmet queue.toFinset := by
    rw [Finset.disjoint_right]
    intro v mem
    exact rota.apart v (List.mem_toFinset.1 mem)
  rw [all, Finset.card_union_of_disjoint disjoint, List.toFinset_card_of_nodup rota.nodup]

theorem suffix {front round : List UserId} (split : shown = front ++ round)
    (length : round.length = among.card) : round <:+ queue := by
  have last : round <:+ shown := ⟨front, split.symm⟩
  rcases rota.trail with short | ⟨none, long⟩
  · exact last.trans short
  · have same : queue.length = round.length := by
      rw [length, rota.card, none]
      simp
    exact List.suffix_of_suffix_length_le last long same.ge

/-- The one whose turn it is goes to the end of the queue. -/
theorem turn (due : IsDue unmet queue v) :
    Rota among (unmet.erase v) (queue.erase v ++ [v]) (shown ++ [v]) where
  nodup := by
    refine List.nodup_append.2 ⟨rota.nodup.erase v, List.nodup_singleton v, ?_⟩
    rintro w mem _ last rfl
    rw [List.mem_singleton.1 last] at mem
    exact rota.nodup.not_mem_erase mem
  mem w := by
    have here : v ∈ among := by
      rcases due with new | ⟨_, first⟩
      · exact (rota.mem v).2 (Or.inl new)
      · exact (rota.mem v).2 (Or.inr (List.mem_of_mem_head? first))
    rw [Finset.mem_erase, List.mem_append, rota.nodup.mem_erase_iff, List.mem_singleton]
    by_cases same : w = v
    · simp [same, here]
    · simp [same, rota.mem w]
  apart w mem := by
    rw [Finset.mem_erase]
    rintro ⟨ne, left⟩
    rcases List.mem_append.1 mem with mem | last
    · exact rota.apart w (List.mem_of_mem_erase mem) left
    · exact ne (List.mem_singleton.1 last)
  trail := by
    rcases due with new | ⟨none, first⟩
    · have absent : v ∉ queue := fun mem => rota.apart v mem new
      have short : shown <:+ queue := by
        rcases rota.trail with short | ⟨none, _⟩
        · exact short
        · simp [none] at new
      rw [List.erase_of_not_mem absent]
      exact Or.inl (List.suffix_append_self_iff.2 short)
    · obtain ⟨rest, rfl⟩ := List.head?_eq_some_iff.1 first
      rw [List.erase_cons_head, none]
      rcases rota.trail with short | ⟨_, long⟩
      · rcases List.suffix_cons_iff.1 short with whole | short
        · rw [whole]
          exact Or.inr ⟨rfl, [v], rfl⟩
        · exact Or.inl (List.suffix_append_self_iff.2 short)
      · have rest_long : rest <:+ shown := (List.suffix_cons v rest).trans long
        exact Or.inr ⟨rfl, List.suffix_append_self_iff.2 rest_long⟩

theorem back (due : IsDue unmet queue v) {i : Nat} (round : i + among.card = shown.length) :
    shown[i]? = some v := by
  have card := rota.card
  have long : queue <:+ shown ∧ unmet = ∅ := by
    rcases rota.trail with short | ⟨none, long⟩
    · have le := short.length_le
      have none : unmet = ∅ := Finset.card_eq_zero.1 (by omega)
      have same : shown = queue := short.eq_of_length (by omega)
      exact ⟨same ▸ List.suffix_rfl, none⟩
    · exact ⟨long, none⟩
  obtain ⟨⟨front, rfl⟩, rfl⟩ := long
  have first : queue.head? = some v := by
    rcases due with new | ⟨_, first⟩
    · simp at new
    · exact first
  obtain ⟨rest, rfl⟩ := List.head?_eq_some_iff.1 first
  have here : i = front.length := by
    simp only [Finset.card_empty, List.length_append, List.length_cons] at card round
    omega
  simp [here]

theorem rotates (due : IsDue unmet queue v) (rotation : IsRotation among shown) :
    IsRotation among (shown ++ [v]) where
  window before round after split length := by
    have after_turn := rota.turn due
    rcases List.eq_nil_or_concat after with rfl | ⟨after, last, rfl⟩
    · rw [List.append_nil] at split
      have queued := after_turn.suffix split length
      refine ⟨after_turn.nodup.sublist queued.sublist, ?_⟩
      intro w mem
      exact (after_turn.mem w).2 (Or.inr (queued.subset mem))
    · rw [List.concat_eq_append, ← List.append_assoc] at split
      exact rotation.window before round after (List.append_inj_left' split rfl) length
  period i w found := by
    have inside : i + among.card < (shown ++ [v]).length := (List.getElem?_eq_some_iff.1 found).1
    rw [List.length_append, List.length_singleton] at inside
    by_cases before : i + among.card < shown.length
    · rw [List.getElem?_append_left before] at found
      rw [List.getElem?_append_left (by omega)]
      exact rotation.period i w found
    · have last : i + among.card = shown.length := by omega
      have back := rota.back due last
      have same : v = w := by simpa [last] using found
      rw [List.getElem?_append_left (List.getElem?_eq_some_iff.1 back).1, back, same]

end Rota

end Turns

section Times

variable {link : String → String} {s s' : Store}

/-- Where the latest attempt of two people is asked for, ids decide between those of one time; and
an attempt that is opened is later than all there are. -/
def Store.Dates (s : Store) : (r : Request) → r.Reply → Prop
  | .latestOfPair u v, reply => reply = .ok (s.latestOfPair? u v)
  | .createAttempt _ _, .ok a => ∀ b ∈ s.attempts, ¬a.createdAt ≤ b.createdAt
  | _, _ => True

/-- A keeper bound by the contract of the stores that stamps attempts with increasing times. -/
def Keeper.dated (link : String → String) : Keeper Store := fun s r reply s' =>
  Keeper.faithful link s r reply s' ∧ s.Dates r reply

theorem Keeper.dated_isLoyal : (Keeper.dated link).IsLoyal link := ⟨fun served => served.1⟩

theorem Store.exists_later (as : List Attempt) : ∃ t : Timestamp, ∀ a ∈ as, ¬t ≤ a.createdAt := by
  induction as with
  | nil => exact ⟨⟨0, 0⟩, by simp⟩
  | cons a rest ih =>
    obtain ⟨t, later⟩ := ih
    refine ⟨⟨max t.seconds a.createdAt.seconds + 1, 0⟩, List.forall_mem_cons.2 ⟨?_, ?_⟩⟩
    · rw [Timestamp.le_def]
      simp only [not_or, not_and]
      omega
    · intro b mem
      have after := later b mem
      rw [Timestamp.le_def] at after ⊢
      simp only [not_or, not_and] at after ⊢
      omega

theorem Keeper.exists_dated (link : String → String) (s : Store) (r : Request) :
    ∃ reply s', Keeper.dated link s r reply s' := by
  cases r with
  | latestOfPair u v =>
    exact ⟨_, s, ⟨s.latestOfPair?_serves u v, trivial, trivial⟩, rfl⟩
  | createAttempt u v =>
    by_cases taken : s.arePending u v
    · obtain ⟨a, mem, joins, pending⟩ := Store.arePending_iff.1 taken
      exact ⟨_, s, ⟨.conflicts mem joins pending, trivial, trivial⟩, trivial⟩
    · obtain ⟨id, fresh⟩ := Store.exists_unused Attempt.id s.attempts
      obtain ⟨t, later⟩ := Store.exists_later s.attempts
      refine ⟨_, _, ⟨.opens id t s.clock ?_ fresh, trivial, trivial⟩, later⟩
      intro a mem joins pending
      exact taken (Store.arePending_iff.2 ⟨a, mem, joins, pending⟩)
  | _ =>
    obtain ⟨reply, s', served⟩ := Store.exists_serves link s _
    exact ⟨reply, s', served, trivial⟩

theorem Keeper.ensures_of_all {α : Type} {p : Program α} {Q : Except MatchError α → Store → Prop}
    (all : ∀ {result s'}, (Keeper.dated link).Runs s p result s' → Q result s') :
    (Keeper.dated link).Ensures s p Q :=
  ⟨Keeper.exists_runs (Keeper.exists_dated link) s p, all⟩

theorem Store.latest?_append {as : List Attempt} {a : Attempt}
    (later : ∀ b ∈ as, ¬a.createdAt ≤ b.createdAt) : Store.latest? (as ++ [a]) = some a := by
  cases found : Store.latest? (as ++ [a]) with
  | none => simp [Store.latest?_eq_none] at found
  | some b =>
    obtain ⟨mem, latest⟩ := Store.latest?_eq_some found
    rcases List.mem_append.1 mem with before | last
    · exact absurd (latest a (by simp)) (later b before)
    · rw [List.mem_singleton.1 last]

end Times

namespace Store

variable {link : String → String} {ruler : Geo.Ruler} {s s₀ s₁ s' : Store} {user v w : UserId}
  {person : Person} {a : Attempt} {side : Role} {among unmet : Finset UserId} {queue : List UserId}

section Rejections

/-- The person was shown the candidate and disliked them: there is one more attempt, later than all
others, and it is closed. -/
structure Rejects (s : Store) (user : UserId) (a : Attempt) (s' : Store) : Prop where
  first : a.first = user
  closed : a.state = .mismatched
  fresh : ∀ b ∈ s.attempts, b.id ≠ a.id
  later : ∀ b ∈ s.attempts, ¬a.createdAt ≤ b.createdAt
  attempts : s'.attempts = s.attempts ++ [a]
  stage : ∀ id, id ≠ a.id → s'.stage id = s.stage id
  people : s.SamePeople s'

namespace Rejects

variable (rejects : s.Rejects user a s')

include rejects

theorem joins (w : UserId) : a.joins user w ↔ w = a.second := by
  simp only [Attempt.joins, rejects.first, Bool.or_eq_true, Bool.and_eq_true, beq_iff_eq]
  constructor
  · rintro (⟨_, same⟩ | ⟨same, other⟩)
    · exact same.symm
    · exact same.symm.trans other.symm
  · intro same
    exact Or.inl ⟨trivial, same.symm⟩

theorem latestOfPair? (w : UserId) : s'.latestOfPair? user w =
    if w = a.second then some a else s.latestOfPair? user w := by
  rw [Store.latestOfPair?, rejects.attempts, List.filter_append]
  by_cases same : w = a.second
  · have here : [a].filter (·.joins user w) = [a] := by simp [rejects.joins, same]
    rw [here, if_pos same]
    refine latest?_append ?_
    intro b mem
    exact rejects.later b (List.mem_filter.1 mem).1
  · have elsewhere : [a].filter (·.joins user w) = [] := by simp [rejects.joins, same]
    rw [elsewhere, List.append_nil, if_neg same, Store.latestOfPair?]

theorem isEligible (own : person.profile.userId = user) (w : UserId) :
    s'.isEligible ruler person w = s.isEligible ruler person w := by
  have records : s'.personOf? w = s.personOf? w := by
    unfold personOf? profileOf? preferencesOf?
    rw [rejects.people.profiles, rejects.people.preferences]
  have pending : s'.arePending user w = s.arePending user w := by
    simp [arePending, rejects.attempts, Attempt.isPending, rejects.closed]
  rw [Store.isEligible, Store.isEligible, records, own, pending]

theorem waiting (someone : UserId) (side : Role) :
    s'.waiting someone side = s.waiting someone side := by
  ext b
  rw [mem_waiting, mem_waiting, rejects.attempts, List.mem_append, List.mem_singleton]
  constructor
  · rintro ⟨mem | rfl, own, pending, turn⟩
    · rw [rejects.stage b.id (rejects.fresh b mem)] at turn
      exact ⟨mem, own, pending, turn⟩
    · simp [Attempt.isPending, rejects.closed] at pending
  · rintro ⟨mem, own, pending, turn⟩
    rw [← rejects.stage b.id (rejects.fresh b mem)] at turn
    exact ⟨Or.inl mem, own, pending, turn⟩

end Rejects

theorem Settles.rejects (opens : (Keeper.dated link).Opens s user v a s₁)
    (settles : s₁.Settles link a .first .dislike s') :
    s.Rejects user { a with state := .mismatched } s' := by
  obtain ⟨clock, ⟨_, later⟩, shown⟩ := opens.served
  cases settles with
  | @dislikes _ s₂ told =>
    refine ⟨opens.first, rfl, opens.admits.fresh, later, ?_, ?_, ?_⟩
    · have unmoved : s.attempts.map (Attempt.move a.id .mismatched) = s.attempts := by
        rw [List.map_congr_left (g := id), List.map_id]
        intro b mem
        simp [Attempt.move, opens.admits.fresh b mem]
      rw [attempts_setState, told.attempts, opens.attempts, List.map_append, unmoved]
      simp [Attempt.move]
    · intro id other
      rw [Store.stage, lastHappening?_congr (log_setState _ _), told.lastHappening?_of_ne other,
        shown.lastHappening?_of_ne other, lastHappening?_congr (log_withAttempt _ _), Store.stage]
    · have people : s.SamePeople s₂ :=
        ((SamePeople.withAttempt s a clock).trans shown.samePeople).trans told.samePeople
      exact people.trans ⟨rfl, rfl, rfl⟩

end Rejections

section Order

/-- The eligible candidates whose latest attempt with the person, if there is one, is no match. -/
def rotation (s : Store) (ruler : Geo.Ruler) (person : Person) : Finset UserId :=
  (s.eligible ruler person).filter fun v =>
    (s.latestOfPair? person.profile.userId v).all (·.state == .mismatched)

def metAt (s : Store) (person : Person) (v : UserId) : Timestamp × UserId :=
  (((s.latestOfPair? person.profile.userId v).map Attempt.createdAt).getD default, v)

/-- These candidates are new to the person, and those were rejected, in that order. -/
structure IsTurning (s : Store) (ruler : Geo.Ruler) (person : Person) (unmet : Finset UserId)
    (queue : List UserId) : Prop where
  unmet : ∀ v, v ∈ unmet ↔
    s.isEligible ruler person v ∧ s.latestOfPair? person.profile.userId v = none
  rejected : ∀ v, v ∈ queue ↔ s.isEligible ruler person v ∧
    ∃ a ∈ s.latestOfPair? person.profile.userId v, a.state = .mismatched
  nodup : queue.Nodup
  sorted : queue.Pairwise fun v w => Buckets.precedes (s.metAt person v) (s.metAt person w)

theorem metAt_of_latest (found : s.latestOfPair? person.profile.userId v = some a) :
    s.metAt person v = (a.createdAt, v) := by
  rw [metAt, found]
  rfl

theorem mem_rotation : v ∈ s.rotation ruler person ↔ s.isEligible ruler person v ∧
    (s.latestOfPair? person.profile.userId v = none ∨
      ∃ a ∈ s.latestOfPair? person.profile.userId v, a.state = .mismatched) := by
  rw [rotation, Finset.mem_filter, mem_eligible]
  cases s.latestOfPair? person.profile.userId v <;> simp

theorem exists_turning (s : Store) (ruler : Geo.Ruler) (person : Person) :
    ∃ unmet queue, s.IsTurning ruler person unmet queue ∧
      Rota (s.rotation ruler person) unmet queue [] := by
  let isNew (v : UserId) : Bool := (s.latestOfPair? person.profile.userId v).isNone
  let before (v w : UserId) : Bool := Buckets.precedes (s.metAt person v) (s.metAt person w)
  let known := ((s.rotation ruler person).filter fun v => !isNew v).toList
  have perm := List.mergeSort_perm known before
  have listed (v : UserId) : v ∈ known.mergeSort before ↔ s.isEligible ruler person v ∧
      ∃ a ∈ s.latestOfPair? person.profile.userId v, a.state = .mismatched := by
    rw [perm.mem_iff, Finset.mem_toList, Finset.mem_filter, mem_rotation]
    cases found : s.latestOfPair? person.profile.userId v <;> simp [isNew, found]
  have new (v : UserId) : v ∈ (s.rotation ruler person).filter (fun v => isNew v) ↔
      s.isEligible ruler person v ∧ s.latestOfPair? person.profile.userId v = none := by
    rw [Finset.mem_filter, mem_rotation]
    cases found : s.latestOfPair? person.profile.userId v <;> simp [isNew, found]
  have nodup : (known.mergeSort before).Nodup := perm.nodup_iff.2 (Finset.nodup_toList _)
  refine ⟨(s.rotation ruler person).filter fun v => isNew v, known.mergeSort before,
    ⟨new, listed, nodup, ?_⟩, ⟨nodup, ?_, ?_, Or.inl List.nil_suffix⟩⟩
  · have trans (u v w : UserId) : before u v → before v w → before u w := Buckets.precedes_trans
    have total (v w : UserId) : before v w || before w v := Buckets.precedes_total _ _
    exact List.pairwise_mergeSort trans total known
  · intro v
    rw [new, listed, mem_rotation, and_or_left]
  · intro v queued met
    obtain ⟨_, a, found, _⟩ := (listed v).1 queued
    rw [((new v).1 met).2] at found
    cases found

/-- A rejected candidate goes to the end of the queue. -/
theorem IsTurning.step (turning : s.IsTurning ruler person unmet queue)
    (own : person.profile.userId = user) (rejects : s.Rejects user a s')
    (eligible : s.isEligible ruler person a.second) :
    s'.IsTurning ruler person (unmet.erase a.second) (queue.erase a.second ++ [a.second]) where
  unmet w := by
    rw [own, rejects.latestOfPair?, rejects.isEligible own, Finset.mem_erase, turning.unmet, own]
    by_cases same : w = a.second <;> simp [same]
  rejected w := by
    rw [own, rejects.latestOfPair?, rejects.isEligible own, List.mem_append, List.mem_singleton,
      turning.nodup.mem_erase_iff, turning.rejected, own]
    by_cases same : w = a.second
    · simp [same, eligible, rejects.closed]
    · simp [same]
  nodup := by
    refine List.nodup_append.2 ⟨turning.nodup.erase _, List.nodup_singleton _, ?_⟩
    rintro w mem _ last rfl
    rw [List.mem_singleton.1 last] at mem
    exact turning.nodup.not_mem_erase mem
  sorted := by
    have before {w : UserId} (mem : w ∈ queue.erase a.second) :
        s'.metAt person w = s.metAt person w := by
      have other : w ≠ a.second := (turning.nodup.mem_erase_iff.1 mem).1
      rw [metAt, own, rejects.latestOfPair?, if_neg other, metAt, own]
    refine List.pairwise_append.2 ⟨?_, List.pairwise_singleton _ _, ?_⟩
    · refine (turning.sorted.sublist List.erase_sublist).imp_of_mem ?_
      intro v w here there precedes
      rwa [before here, before there]
    · intro w mem v last
      rw [List.mem_singleton.1 last, before mem]
      obtain ⟨_, b, found, _⟩ := (turning.rejected w).1 (List.mem_of_mem_erase mem)
      have stored : b ∈ s.attempts := by
        have latest := (latest?_eq_some found).1
        exact (List.mem_filter.1 latest).1
      have after := rejects.later b stored
      have le : b.createdAt ≤ a.createdAt := (Timestamp.le_total _ _).resolve_right after
      have ne : b.createdAt ≠ a.createdAt := by
        intro same
        exact after (same ▸ Timestamp.le_refl _)
      have now : s'.metAt person a.second = (a.createdAt, a.second) :=
        metAt_of_latest (by rw [own, rejects.latestOfPair?, if_pos rfl])
      rw [now, metAt_of_latest found, Buckets.precedes, if_neg ne]
      exact decide_eq_true le

/-- The choice falls on a candidate that is due, whatever index chance gives. -/
theorem IsTurning.due_of_chosen {chosen : Option UserId}
    (turning : s.IsTurning ruler person unmet queue) (left : unmet.Nonempty ∨ queue ≠ [])
    (picks : (Keeper.dated link).Runs s (Engine.chooseCandidate ruler person) (.ok chosen) s) :
    ∃ v, chosen = some v ∧ IsDue unmet queue v := by
  have loyal : (Keeper.dated link).IsLoyal link := Keeper.dated_isLoyal
  obtain ⟨ids, fs, index, listed, files, told, _⟩ := picks.chooseCandidate loyal.isTruthful
  have filed : fs = s.filings person (ids.filter (s.isEligible ruler person)) := by
    refine files.eq_filings fun told => ?_
    obtain ⟨_, latest⟩ := told
    exact Except.ok.inj latest
  have mem_ids {v : UserId} : v ∈ ids.filter (s.isEligible ruler person) ↔
      s.isEligible ruler person v := by
    rw [List.mem_filter, and_iff_right_iff_imp]
    intro eligible
    cases (loyal.faithful listed).1 with
    | validUsers all =>
      exact (all v).2 ⟨profile_of_isEligible eligible, preferences_of_isEligible eligible⟩
  have new (v : UserId) : v ∈ Buckets.strangers fs ↔ v ∈ unmet := by
    rw [filed, strangers_filings, newcomers, List.mem_filter, mem_ids, turning.unmet,
      Option.isNone_iff_eq_none]
  have told : chosen = (Buckets.file {} fs).answer index := Except.ok.inj told
  by_cases none_new : Buckets.strangers fs = []
  · have all_met : unmet = ∅ := by
      rw [Finset.eq_empty_iff_forall_notMem]
      intro v mem
      simp [← new, none_new] at mem
    cases queue with
    | nil => simp [all_met] at left
    | cons w rest =>
      obtain ⟨first, _⟩ := List.pairwise_cons.1 turning.sorted
      obtain ⟨eligible, a, found, rejected⟩ := (turning.rejected w).1 List.mem_cons_self
      refine ⟨w, ?_, Or.inr ⟨all_met, rfl⟩⟩
      rw [told, Buckets.answer_of_known index none_new, filed, isLongestAgo_filings]
      refine Or.inl ⟨mem_ids.2 eligible, a, found, rejected, ?_⟩
      intro v listed b found' rejected'
      rw [← metAt_of_latest found, ← metAt_of_latest found']
      have queued := (turning.rejected v).2 ⟨mem_ids.1 listed, b, found', rejected'⟩
      rcases List.mem_cons.1 queued with rfl | later
      · exact Buckets.precedes_refl _
      · exact first v later
  · have inside :
        min index ((Buckets.strangers fs).length - 1) < (Buckets.strangers fs).length := by
      have := List.length_pos_iff.2 none_new
      omega
    rw [Buckets.answer_of_strangers index none_new, List.getElem?_eq_getElem inside] at told
    exact ⟨_, told, Or.inl ((new _).1 (List.getElem_mem inside))⟩

end Order

section Rounds

/-- If only this person acts, alternating `nextPartner` and a dislike of the user shown, then for
that many rounds every call succeeds, and the list of those shown is so in the end. -/
def GoesRound (keeper : Keeper Store) (ruler : Geo.Ruler) (user : UserId)
    (P : List UserId → Prop) : Nat → List UserId → Store → Prop
  | 0, shown, _ => P shown
  | n + 1, shown, s => ∀ retries,
    keeper.Ensures s ((Call.next retries ⟨user⟩).program ruler) fun result s₁ =>
      ∃ partner, result = .ok (.partner partner) ∧
        keeper.Ensures s₁ ((Call.swipe ⟨user⟩ partner.profile.userId .dislike).program ruler)
          fun result s₂ => result = .ok .recorded ∧
            GoesRound keeper ruler user P n (shown ++ [partner.profile.userId]) s₂

/-- Completed calls have led to that store, in which no attempt waits for the person, and the
candidates go round. -/
structure IsRotating (link : String → String) (ruler : Geo.Ruler) (s₀ : Store) (person : Person)
    (among unmet : Finset UserId) (queue shown : List UserId) (s : Store) : Prop where
  undergoes : ∃ calls, s₀.Undergoes link ruler calls s
  described : s.Describes person.profile.userId person
  vacant : s.waiting person.profile.userId .first = ∅
  unliked : s.waiting person.profile.userId .second = ∅
  turning : s.IsTurning ruler person unmet queue
  rota : Rota among unmet queue shown
  rotation : IsRotation among shown

namespace IsRotating

variable {shown : List UserId} {retries : Nat}
  (rotating : IsRotating link ruler s₀ person among unmet queue shown s) (fresh : s₀.IsFresh)
  (somebody : person.profile.userId ≠ 0) (nonempty : among.Nonempty)

include rotating somebody nonempty

/-- `nextPartner` shows the candidate that is due, in an attempt that it opens. -/
theorem asks {result : Except MatchError Call.Result}
    (runs : (Keeper.dated link).Runs s
      ((Call.next retries ⟨person.profile.userId⟩).program ruler) result s₁) :
    ∃ v a partner, IsDue unmet queue v ∧ s.isEligible ruler person v ∧
      (Keeper.dated link).Opens s person.profile.userId v a s₁ ∧
      result = .ok (.partner partner) ∧ partner.profile.userId = v := by
  have loyal : (Keeper.dated link).IsLoyal link := Keeper.dated_isLoyal
  have left : unmet.Nonempty ∨ queue ≠ [] := by
    obtain ⟨v, mem⟩ := nonempty
    rcases (rotating.rota.mem v).1 mem with new | queued
    · exact Or.inl ⟨v, new⟩
    · exact Or.inr (List.ne_nil_of_mem queued)
  obtain ⟨chosen, picks, ends⟩ := runs.next_of_idle loyal rotating.described somebody
    (waiting_first_eq_empty.1 rotating.vacant) (waiting_second_eq_empty.1 rotating.unliked)
  obtain ⟨v, rfl, due⟩ := rotating.turning.due_of_chosen left picks
  rcases ends with ⟨none, _⟩ | ⟨w, a, same, opens, rfl⟩
  · cases none
  · obtain rfl := Option.some.inj same
    obtain ⟨_, _, told, _, eligible⟩ := picks.eligible_of_chosen loyal
    cases told
    have fit := eligible v rfl
    obtain ⟨partner, told, shown⟩ := shows_of_known link (profile_of_isEligible fit)
    exact ⟨v, a, partner, due, fit, opens, told, shown⟩

omit nonempty

include fresh

/-- A dislike sends the candidate to the end of the queue. -/
theorem answers (due : IsDue unmet queue v) (eligible : s.isEligible ruler person v)
    (opens : (Keeper.dated link).Opens s person.profile.userId v a s₁)
    (undergoes : ∃ calls, s₀.Undergoes link ruler calls s₁)
    {result : Except MatchError Call.Result}
    (runs : (Keeper.dated link).Runs s₁
      ((Call.swipe ⟨person.profile.userId⟩ v .dislike).program ruler) result s') :
    result = .ok .recorded ∧ IsRotating link ruler s₀ person among (unmet.erase v)
      (queue.erase v ++ [v]) (shown ++ [v]) s' := by
  obtain ⟨calls, undergoes⟩ := undergoes
  have ventures := Keeper.dated_isLoyal.ventures runs
  have exclusive := (undergoes.isCoherent fresh).exclusive
  obtain ⟨told, settles⟩ :=
    (opens.awaits.assures_swipe ruler exclusive somebody .dislike).all ventures
  have rejects := settles.rejects opens
  have turning := rotating.turning.step rfl rejects
    (by rw [opens.second]; exact eligible)
  rw [opens.second] at turning
  refine ⟨told, ⟨_, .next undergoes ventures.yields_of_ended⟩, ?_, ?_, ?_, turning,
    rotating.rota.turn due, rotating.rota.rotates due rotating.rotation⟩
  · exact rejects.people.describes rotating.described
  · rw [rejects.waiting, rotating.vacant]
  · rw [rejects.waiting, rotating.unliked]

include nonempty

theorem goesRound (n : Nat) :
    GoesRound (Keeper.dated link) ruler person.profile.userId (IsRotation among) n shown s := by
  induction n generalizing s unmet queue shown with
  | zero => exact rotating.rotation
  | succ n ih =>
    refine fun retries => Keeper.ensures_of_all fun runs => ?_
    obtain ⟨v, a, partner, due, eligible, opens, told, rfl⟩ :=
      rotating.asks somebody nonempty runs
    obtain ⟨calls, undergoes⟩ := rotating.undergoes
    have asked := (Keeper.dated_isLoyal.ventures runs).yields_of_ended
    refine ⟨partner, told, Keeper.ensures_of_all fun runs => ?_⟩
    obtain ⟨heard, rotating⟩ :=
      rotating.answers fresh somebody due eligible opens ⟨_, .next undergoes asked⟩ runs
    exact ⟨heard, ih rotating⟩

end IsRotating

/-- Rejected candidates rotate. Where no attempt waits for the person, and the person only
alternates `nextPartner` and dislikes, the eligible candidates who are new or whose latest attempt
with the person is a mismatch are shown one after the other, and come back in the same order,
whatever index chance gives. -/
theorem rejected_candidates_rotate {calls : List Call} (fresh : s₀.IsFresh)
    (undergoes : s₀.Undergoes link ruler calls s) (described : s.Describes user person)
    (somebody : user ≠ 0) (vacant : s.waiting user .first = ∅)
    (unliked : s.waiting user .second = ∅) (nonempty : (s.rotation ruler person).Nonempty)
    (n : Nat) :
    GoesRound (Keeper.dated link) ruler user (IsRotation (s.rotation ruler person)) n [] s := by
  obtain ⟨unmet, queue, turning, rota⟩ := s.exists_turning ruler person
  obtain rfl := described.own
  have rotating : IsRotating link ruler s₀ person (s.rotation ruler person) unmet queue [] s :=
    ⟨⟨calls, undergoes⟩, described, vacant, unliked, turning, rota, isRotation_nil _⟩
  exact rotating.goesRound fresh somebody nonempty n

def afterDislike : Store :=
  (village [1, 2, 3]).completeAll ("photos/" ++ ·) { photoBase := "photos" } (fun _ _ => some 0)
    [.next 0 ⟨1⟩, .swipe ⟨1⟩ 2 .dislike]

/-- The new candidate and the disliked one take turns. -/
theorem rejected_candidates_rotate_afterDislike :
    afterDislike.attempts.map Attempt.people = [(1, 2)] ∧
      ∃ person, afterDislike.Describes 1 person ∧
        afterDislike.rotation (fun _ _ => some 0) person = {2, 3} ∧
        ∀ n, GoesRound (Keeper.dated ("photos/" ++ ·)) (fun _ _ => some 0) 1
          (IsRotation (afterDislike.rotation (fun _ _ => some 0) person)) n [] afterDislike := by
  have described : afterDislike.Describes 1 ⟨_, _⟩ := ⟨rfl, rfl, by decide +kernel⟩
  refine ⟨by decide +kernel, _, described, by decide +kernel, ?_⟩
  exact rejected_candidates_rotate (isFresh_village [1, 2, 3])
    (Undergoes.none.completeAll (isNumbered_village [1, 2, 3]) _ _) described (by decide)
    (by decide +kernel) (by decide +kernel) (by decide +kernel)

/-- For user zero `nextPartner` ends in `unauthenticated`, whatever candidates are eligible. -/
theorem candidates_of_nobody_do_not_rotate :
    ¬ ∀ (link : String → String) (ruler : Geo.Ruler) (s₀ s : Store) (calls : List Call)
      (user : UserId) (person : Person), s₀.IsFresh → s₀.Undergoes link ruler calls s →
        s.Describes user person → s.waiting user .first = ∅ → s.waiting user .second = ∅ →
        (s.rotation ruler person).Nonempty → ∀ n, GoesRound (Keeper.dated link) ruler user
          (IsRotation (s.rotation ruler person)) n [] s := by
  intro claimed
  have described : (village [0, 1]).Describes 0 ⟨_, _⟩ := ⟨rfl, rfl, by decide +kernel⟩
  have goesRound := claimed ("photos/" ++ ·) (fun _ _ => some 0) (village [0, 1]) (village [0, 1])
    [] 0 _ (isFresh_village [0, 1]) .none described (by decide +kernel) (by decide +kernel)
    (by decide +kernel) 1
  obtain ⟨_, told, _⟩ := (goesRound 0).all (.fail _ .unauthenticated)
  cases told

end Rounds

end Store

end Matchmaking
