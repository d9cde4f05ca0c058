import Matchmaking.Proofs.Engine.Stance
/-! Both entry points keep the protocol of stances, whatever the collaborators answer. A call that
makes any request has a caller other than zero, and it ends owing nothing. -/
namespace Matchmaking
namespace Call

open Program Engine

@[simp] theorem protocol_next (c : Call) : c.protocol.next = c.after := rfl

def stays {α : Type} (pos : Stance) : Stance → α → Prop := fun pos' _ => pos' = pos

theorem keeps_then {c : Call} {α β : Type} {pos pos' : Stance} {Q : Stance → β → Prop}
    {p : Program α} {f : α → Program β} (first : p.Keeps c.protocol (stays pos') pos)
    (rest : ∀ a, (f a).Keeps c.protocol Q pos') : (p >>= f).Keeps c.protocol Q pos := by
  refine first.bind ?_
  intro last a here
  have same : last = pos' := here
  rw [same]
  exact rest a

section Describing

variable {c : Call} {pos : Stance}

/-- Requests about a person neither wait for a position nor change it. -/
structure Idles (c : Call) (pos : Stance) : Prop where
  permits : ∀ r : Request, r.describes → c.permits pos r
  after : ∀ (r : Request) (reply : r.Reply), r.describes → c.after pos r reply = pos
  settles : settles pos

theorem idles_free (c : Call) : c.Idles .free where
  permits r h := by
    left
    cases r <;> simp_all [Request.describes, Request.isPlain]
  after r reply h := by cases r <;> simp_all [Request.describes, Call.after, noticing]
  settles := trivial

theorem idles_telling (c : Call) (a : Attempt) (kind : NoticeKind) (side : Role)
    (rest : List Role) : c.Idles (.telling a kind side rest) where
  permits r h := Or.inl h
  after r reply h := by cases r <;> simp_all [Request.describes, Call.after, Request.isNotice]
  settles := trivial

theorem Idles.keeps_call (idles : c.Idles pos) {α : Type} {Q : Stance → α → Prop} {r : Request}
    {k : r.Reply → Program α} (describes : r.describes)
    (rest : ∀ reply, Request.Honest r reply → (k reply).Keeps c.protocol Q pos) :
    (call r k).Keeps c.protocol Q pos := by
  refine ⟨idles.permits r describes, ?_⟩
  intro reply honest
  rw [protocol_next, idles.after r reply describes]
  exact rest reply honest

theorem Idles.keeps_expect (idles : c.Idles pos) {α β : Type} {Q : Stance → β → Prop}
    {context : String} {reply : Except StoreError α} {f : α → Program β}
    (rest : ∀ a, reply = .ok a → (f a).Keeps c.protocol Q pos) :
    (expect context reply >>= f).Keeps c.protocol Q pos :=
  Program.keeps_expect (fun _ _ => idles.settles) rest

theorem Idles.linkPhotos (idles : c.Idles pos) (keys : List String) :
    (linkPhotos keys).Keeps c.protocol (stays pos) pos := by
  induction keys with
  | nil => exact rfl
  | cons key rest ih =>
    apply idles.keeps_call rfl
    intro reply _
    apply idles.keeps_expect
    intro link _
    apply keeps_then ih
    intro photos
    exact rfl

theorem Idles.showcase (idles : c.Idles pos) (user : UserId) :
    (showcase user).Keeps c.protocol (stays pos) pos := by
  apply idles.keeps_call rfl
  intro reply _
  apply idles.keeps_expect
  intro profile _
  cases profile with
  | none => exact idles.settles
  | some profile =>
    apply idles.keeps_call rfl
    intro reply _
    apply idles.keeps_expect
    intro keys _
    apply keeps_then (idles.linkPhotos keys)
    intro photos
    exact rfl

theorem Idles.partnerNotice (idles : c.Idles pos) (user : UserId) :
    (partnerNotice user).Keeps c.protocol (stays pos) pos := by
  apply idles.keeps_call rfl
  intro reply _
  apply idles.keeps_expect
  intro profile _
  apply idles.keeps_call rfl
  intro reply _
  apply idles.keeps_expect
  intro keys _
  cases keys with
  | nil => exact rfl
  | cons key rest =>
    apply idles.keeps_call rfl
    intro reply _
    apply idles.keeps_expect
    intro link _
    exact rfl

end Describing
end Call

namespace Buckets

def candidates (b : Buckets) : List UserId :=
  b.fresh ++ b.rejected.map Prod.snd ++ b.matched.map Prod.snd

theorem mem_candidates_insert {b : Buckets} {id : UserId} {history : History} {u : UserId}
    (mem : u ∈ (b.insert id history).candidates) : u = id ∨ u ∈ b.candidates := by
  rcases history with _ | ⟨state, at_⟩
  · simp only [insert, candidates, List.mem_append, List.mem_singleton] at mem ⊢
    grind
  · cases state <;>
      simp only [insert, candidates, List.map_append, List.map_cons, List.map_nil,
        List.mem_append, List.mem_singleton] at mem ⊢ <;> grind

theorem oldest_mem {l : List (Timestamp × UserId)} {x : Timestamp × UserId}
    (h : oldest l = some x) : x ∈ l := by
  induction l generalizing x with
  | nil => simp [oldest] at h
  | cons a rest ih =>
    cases found : oldest rest with
    | none =>
      simp only [oldest, found, Option.some.injEq] at h
      rw [h]
      exact List.mem_cons_self
    | some b =>
      simp only [oldest, found] at h
      split at h
      · rw [Option.some.inj h]
        exact List.mem_cons_self
      · exact List.mem_cons_of_mem a (ih (found.trans h))

theorem answer_mem {b : Buckets} {index : Nat} {u : UserId} (h : b.answer index = some u) :
    u ∈ b.candidates := by
  unfold answer at h
  simp only [candidates, List.mem_append, List.mem_map]
  split at h
  · obtain ⟨x, found, rfl⟩ := Option.map_eq_some_iff.1 h
    rcases Option.or_eq_some_iff.1 found with rejected | ⟨_, matched⟩
    · exact Or.inl (Or.inr ⟨x, oldest_mem rejected, rfl⟩)
    · exact Or.inr ⟨x, oldest_mem matched, rfl⟩
  · exact Or.inl (Or.inl (List.mem_of_getElem? h))

end Buckets

namespace Call

open Program Engine

section Choosing

variable {retries : Nat} {principal : Principal} {ruler : Geo.Ruler}

theorem next_keeps_plain {α : Type} {Q : Stance → α → Prop} {r : Request}
    {k : r.Reply → Program α} (plain : r.isPlain)
    (rest : ∀ reply, Request.Honest r reply →
      (k reply).Keeps (next retries principal).protocol Q .free) :
    (call r k).Keeps (next retries principal).protocol Q .free := by
  refine ⟨Or.inl plain, ?_⟩
  intro reply honest
  have same : (next retries principal).after .free r reply = .free := by
    cases r <;> simp_all [Request.isPlain, Call.after, noticing]
    rcases reply with e | _ | a <;> rfl
  rw [protocol_next, same]
  exact rest reply honest

theorem next_keeps_expect {α β : Type} {Q : Stance → β → Prop} {context : String}
    {reply : Except StoreError α} {f : α → Program β}
    (rest : ∀ a, reply = .ok a → (f a).Keeps (next retries principal).protocol Q .free) :
    (expect context reply >>= f).Keeps (next retries principal).protocol Q .free :=
  keeps_expect (fun _ _ => trivial) rest

def sparing (user : UserId) : Stance → Buckets → Prop :=
  fun pos b => pos = .free ∧ user ∉ b.candidates

theorem consider_keeps {person : Person} (own : person.profile.userId = principal.id)
    {b : Buckets} (spared : principal.id ∉ b.candidates) (id : UserId) :
    (consider ruler person b id).Keeps (next retries principal).protocol (sparing principal.id)
      .free := by
  have same : sparing principal.id .free b := ⟨rfl, spared⟩
  rw [consider, own]
  by_cases self : id = principal.id
  · rw [if_pos self]
    exact same
  · rw [if_neg self]
    apply next_keeps_plain rfl
    intro reply _
    apply next_keeps_expect
    intro preferences _
    rcases preferences with _ | preferences
    · exact same
    apply next_keeps_plain rfl
    intro reply _
    apply next_keeps_expect
    intro profile _
    rcases profile with _ | profile
    · exact same
    dsimp only
    split
    · exact same
    apply next_keeps_plain rfl
    intro reply _
    apply next_keeps_expect
    intro pending _
    split
    · exact same
    apply next_keeps_plain rfl
    intro reply _
    apply next_keeps_expect
    intro latest _
    refine ⟨rfl, ?_⟩
    intro mem
    rcases Buckets.mem_candidates_insert mem with equal | mem
    · exact self equal.symm
    · exact spared mem

theorem collect_keeps {person : Person} (own : person.profile.userId = principal.id)
    {b : Buckets} (spared : principal.id ∉ b.candidates) (ids : List UserId) :
    (collect ruler person b ids).Keeps (next retries principal).protocol (sparing principal.id)
      .free := by
  induction ids generalizing b with
  | nil => exact ⟨rfl, spared⟩
  | cons id rest ih =>
    refine (consider_keeps own spared id).bind ?_
    intro pos b held
    obtain ⟨rfl, spared⟩ := held
    exact ih spared

def choosing (user : UserId) : Stance → Option UserId → Prop :=
  fun pos chosen => pos = .free ∧ ∀ v ∈ chosen, v ≠ user

theorem pick_keeps {b : Buckets} (spared : principal.id ∉ b.candidates) :
    b.pick.Keeps (next retries principal).protocol (choosing principal.id) .free := by
  have chosen (index : Nat) : choosing principal.id .free (b.answer index) := by
    refine ⟨rfl, ?_⟩
    intro v found self
    have filed := Buckets.answer_mem found
    rw [self] at filed
    exact spared filed
  unfold Buckets.pick
  split
  · apply next_keeps_plain rfl
    intro index _
    exact chosen index
  · exact chosen 0

theorem chooseCandidate_keeps {person : Person} (own : person.profile.userId = principal.id) :
    (chooseCandidate ruler person).Keeps (next retries principal).protocol (choosing principal.id)
      .free := by
  apply next_keeps_plain rfl
  intro reply _
  apply next_keeps_expect
  intro ids _
  refine (collect_keeps own (List.not_mem_nil) ids).bind ?_
  intro pos b held
  obtain ⟨rfl, spared⟩ := held
  exact pick_keeps spared

theorem completePerson_keeps :
    (completePerson principal.id).Keeps (next retries principal).protocol
      (fun pos person => pos = .free ∧ person.profile.userId = principal.id) .free := by
  apply next_keeps_plain rfl
  intro reply honest
  apply next_keeps_expect
  intro profile told
  subst told
  apply next_keeps_plain rfl
  intro reply _
  apply next_keeps_expect
  intro preferences _
  rcases profile with _ | profile
  · exact trivial
  rcases preferences with _ | preferences
  · exact trivial
  dsimp only
  split
  · exact ⟨rfl, honest⟩
  · exact trivial

end Choosing

section Showing

variable {c : Call} {retries : Nat} {principal : Principal} {ruler : Geo.Ruler}

theorem append_keeps (c : Call) (a : Attempt) (h : Happening) :
    (append a.id h).Keeps c.protocol (stays (Stance.afterWriting a h)) (.writing a h) := by
  refine ⟨rfl, ?_⟩
  intro reply _
  cases reply with
  | error e => exact trivial
  | ok event => exact rfl

theorem lastHappening_keeps (c : Call) (pos : Stance) {id : AttemptId}
    (permitted : c.permits pos (.lastEvent id))
    (failed : ∀ e : StoreError, settles (c.after pos (.lastEvent id) (.error e))) :
    (lastHappening id).Keeps c.protocol
      (fun pos' last => ∃ event : Option Event, last = event.map Event.happening ∧
        pos' = c.after pos (.lastEvent id) (.ok event)) pos := by
  refine ⟨permitted, ?_⟩
  intro reply _
  cases reply with
  | error e => exact failed e
  | ok event => exact ⟨event, rfl, rfl⟩

theorem completeShowing_keeps (c : Call) (a : Attempt) (rest : List Attempt)
    {last : Option Happening} (turn : Stage.after last = .awaitingFirst) :
    (completeShowing a.id last).Keeps c.protocol (stays .free) (.afterLooking a rest last) := by
  have shown : (append a.id .shownToFirst).Keeps c.protocol (stays .free)
      (.writing a .shownToFirst) := append_keeps c a .shownToFirst
  rcases last with _ | last
  · apply keeps_then (append_keeps c a .created)
    intro _
    exact shown
  · cases last <;> simp only [Stage.after, reduceCtorEq] at turn
    · exact shown
    · exact rfl

theorem hangingAmong_keeps (c : Call) (as : List Attempt) :
    (hangingAmong as).Keeps c.protocol (stays .free) (.through as) := by
  induction as with
  | nil => exact rfl
  | cons a rest ih =>
    refine (lastHappening_keeps c (.hanging a rest) rfl fun _ => trivial).bind ?_
    intro pos last seen
    obtain ⟨event, told, rfl⟩ := seen
    have read : c.after (.hanging a rest) (.lastEvent a.id) (.ok event) =
        .afterLooking a rest last := by
      rw [told]
      rfl
    rw [read]
    split
    · next turn =>
      apply keeps_then (completeShowing_keeps c a rest turn)
      intro _
      apply keeps_then ((idles_free c).showcase a.second)
      intro _
      exact rfl
    · next turn =>
      have passed : Stance.afterLooking a rest last = .through rest := by
        rcases last with _ | last
        · exact absurd rfl turn
        · cases last <;> first | rfl | exact absurd rfl turn
      rw [passed]
      exact ih

theorem hangingPartner_keeps (c : Call) :
    (hangingPartner c.user).Keeps c.protocol (stays .free) .free := by
  refine ⟨Or.inr (Or.inl rfl), ?_⟩
  intro reply _
  cases reply with
  | error e => exact trivial
  | ok as => exact hangingAmong_keeps c as

theorem liker_keeps (c : Call) : (liker c.user).Keeps c.protocol (stays .free) .free := by
  refine ⟨Or.inr (Or.inr (Or.inl rfl)), ?_⟩
  have shown (a : Attempt) :
      (showcase a.first >>= fun s => done (some s)).Keeps c.protocol (stays .free) .free := by
    apply keeps_then ((idles_free c).showcase a.first)
    intro _
    exact rfl
  intro reply _
  rcases reply with e | _ | a
  · exact trivial
  · exact rfl
  · have unread (e : StoreError) : settles (c.after (.courted a) (.lastEvent a.id) (.error e)) := by
      simp [Call.after, Request.lastSeen?, settles]
    refine (lastHappening_keeps c (.courted a) rfl unread).bind ?_
    intro pos last seen
    obtain ⟨event, rfl, rfl⟩ := seen
    have read : c.after (.courted a) (.lastEvent a.id) (.ok event) =
        if event.map Event.happening = some .firstLiked then .writing a .shownToSecond
        else .free := by
      simp [Call.after, Request.lastSeen?]
    rw [read]
    split
    · apply keeps_then (append_keeps c a .shownToSecond)
      intro _
      exact shown a
    · exact shown a

theorem freshPartner_keeps {person : Person} (own : person.profile.userId = principal.id)
    (rounds : Nat) :
    (freshPartner ruler person rounds).Keeps (next retries principal).protocol (stays .free)
      .free := by
  induction rounds with
  | zero => exact rfl
  | succ rounds ih =>
    refine (chooseCandidate_keeps own).bind ?_
    intro pos chosen picked
    obtain ⟨rfl, other⟩ := picked
    cases chosen with
    | none => exact rfl
    | some candidate =>
      rw [own]
      refine ⟨Or.inr (Or.inr (Or.inr ⟨candidate, other candidate rfl, rfl⟩)), ?_⟩
      intro reply _
      cases reply with
      | error e =>
        cases e
        case pendingConflict u v => exact ih
        all_goals exact trivial
      | ok a =>
        simp only [Program.bind]
        apply keeps_then (append_keeps (next retries principal) a .created)
        intro _
        apply keeps_then (append_keeps (next retries principal) a .shownToFirst)
        intro _
        apply keeps_then ((idles_free _).showcase candidate)
        intro _
        exact rfl

theorem nextPartner_keeps :
    (nextPartner ruler retries principal).Keeps (next retries principal).protocol (stays .free)
      .free := by
  unfold nextPartner asUser identify
  split
  · next user told =>
    split at told
    · simp at told
    · rw [← Except.ok.inj told]
      refine completePerson_keeps.bind ?_
      intro pos person complete
      obtain ⟨rfl, own⟩ := complete
      apply keeps_then (hangingPartner_keeps (next retries principal))
      intro hanging
      cases hanging with
      | some partner => exact rfl
      | none =>
        apply keeps_then (liker_keeps (next retries principal))
        intro liker
        cases liker with
        | some partner => exact rfl
        | none =>
          apply keeps_then (freshPartner_keeps own (retries + 1))
          intro fresh
          cases fresh with
          | some partner => exact rfl
          | none => exact trivial
  · exact trivial

end Showing

section Answering

variable {c : Call}

theorem finish_keeps (c : Call) (a : Attempt) (swiper : UserId) (state : State)
    {closing : Happening} (closes : Happening.closing state = some closing)
    (led : Stance.afterWriting a closing = .moving a state) :
    (finish a swiper state).Keeps c.protocol (stays (Stance.afterMoving a state))
      (.writing a closing) := by
  unfold finish
  rw [closes]
  apply keeps_then (append_keeps c a closing)
  intro _
  rw [led]
  refine ⟨rfl, ?_⟩
  intro reply _
  cases reply with
  | error e => cases e <;> exact trivial
  | ok _ => exact rfl

theorem notify_keeps (c : Call) (a : Attempt) (kind : NoticeKind) (side : Role) (rest : List Role)
    (notice : Notice) {α : Type} {Q : Stance → α → Prop} {p : Program α}
    (after : p.Keeps c.protocol Q (.tell a kind rest)) :
    (send (.ofNotice kind (a.person side) notice) >>= fun _ => p).Keeps c.protocol Q
      (.telling a kind side rest) := by
  refine ⟨Or.inr ⟨notice, rfl⟩, ?_⟩
  intro reply _
  have told : c.after (.telling a kind side rest) (.ofNotice kind (a.person side) notice) reply =
      .tell a kind rest := by
    cases kind <;> rfl
  rw [protocol_next, told]
  exact after

theorem announceMatch_keeps (c : Call) (a : Attempt) :
    (announceMatch a.first a.second).Keeps c.protocol (stays .free)
      (.tell a .matched [.second, .first]) := by
  have idles : c.Idles (.tell a .matched [.second, .first]) := idles_telling c a .matched _ _
  apply keeps_then (idles.partnerNotice a.first)
  intro aboutFirst
  apply keeps_then (idles.partnerNotice a.second)
  intro aboutSecond
  apply notify_keeps c a .matched .second [.first] aboutFirst
  apply notify_keeps c a .matched .first [] aboutSecond
  exact rfl

/-- What follows a verdict pays what it owes. -/
theorem settle_keeps (c : Call) (a : Attempt) (user : UserId) (side : Role) (verdict : Verdict) :
    (settle a user side verdict).Keeps c.protocol (stays .free)
      (.afterWriting a (.swipe side verdict)) := by
  cases side <;> cases verdict
  · have idles : c.Idles (.tell a .liked [.second]) := idles_telling c a .liked _ _
    apply keeps_then (idles.partnerNotice user)
    intro notice
    apply notify_keeps c a .liked .second [] notice
    exact rfl
  · exact finish_keeps c a user .mismatched rfl rfl
  · apply keeps_then (finish_keeps c a user .matched rfl rfl)
    intro _
    refine ⟨rfl, ?_⟩
    intro reply _
    cases reply with
    | error e => exact trivial
    | ok chat => exact announceMatch_keeps c a
  · exact finish_keeps c a user .mismatched rfl rfl

theorem swipe_keeps (principal : Principal) (candidate : UserId) (verdict : Verdict) :
    (Engine.swipe principal candidate verdict).Keeps
      (Call.swipe principal candidate verdict).protocol (stays .free) .free := by
  unfold Engine.swipe asUser identify
  split
  · next user told =>
    split at told
    · simp at told
    rw [← Except.ok.inj told]
    refine ⟨Or.inl rfl, ?_⟩
    intro reply _
    rcases reply with e | _ | a
    · exact trivial
    · exact trivial
    cases taken : Role.of a principal.id with
    | none =>
      have led : Call.after (.swipe principal candidate verdict) .free
          (.pendingOfPair principal.id candidate) (.ok (some a)) = .free := by
        simp [Call.after, noticing, taken]
      rw [protocol_next, led]
      simp only [Program.bind, expect_ok, done_bind, taken]
      exact trivial
    | some side =>
      have led : Call.after (.swipe principal candidate verdict) .free
          (.pendingOfPair principal.id candidate) (.ok (some a)) = .found a side verdict := by
        simp [Call.after, noticing, taken]
      rw [protocol_next, led]
      simp only [Program.bind, expect_ok, done_bind, taken]
      refine (lastHappening_keeps _ (.found a side verdict) rfl fun _ => trivial).bind ?_
      intro pos last seen
      obtain ⟨event, rfl, rfl⟩ := seen
      have read : Call.after (.swipe principal candidate verdict) (.found a side verdict)
          (.lastEvent a.id) (.ok event) =
            if (Stage.after (event.map Event.happening)).awaiting = some side then
              .writing a (.swipe side verdict) else .free := rfl
      rw [read]
      by_cases turn : (Stage.after (event.map Event.happening)).awaiting = some side
      · rw [if_pos turn, if_neg (not_not_intro turn)]
        apply keeps_then (append_keeps _ a (.swipe side verdict))
        intro _
        exact settle_keeps _ a principal.id side verdict
      · rw [if_neg turn, if_pos turn]
        exact trivial
  · exact trivial

end Answering

/-- Every call of the engine keeps the protocol and ends owing nothing. -/
theorem program_keeps (c : Call) (ruler : Geo.Ruler) :
    (c.program ruler).Keeps c.protocol (stays .free) .free := by
  cases c with
  | next retries principal =>
    apply keeps_then nextPartner_keeps
    intro partner
    exact rfl
  | swipe principal candidate verdict =>
    apply keeps_then (swipe_keeps principal candidate verdict)
    intro _
    exact rfl

theorem program_of_user_zero {c : Call} (nobody : c.user = 0) (ruler : Geo.Ruler) :
    c.program ruler = .fail .unauthenticated := by
  cases c with
  | next retries principal =>
    simp only [user] at nobody
    simp [program, nextPartner, asUser, identify, nobody]
  | swipe principal candidate verdict =>
    simp only [user] at nobody
    simp [program, Engine.swipe, asUser, identify, nobody]

end Call
end Matchmaking
