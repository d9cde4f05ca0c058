import Matchmaking.Proofs.Engine.Conduct
/-! The parts of the engine, each gone through once. `Heeds` says of a program what it may ask for,
that it does not look at the fate of notifications, that a failure ends it with an error that names
the step, in which errors of its own it may end, and what holds of its value. -/
namespace Matchmaking

def Exchange.profile? : Exchange → Option Profile
  | ⟨.profile _, .ok found⟩ => found
  | _ => none

namespace Request

def seeks : Request → Bool
  | createAttempt _ _ | pendingOf _ => true
  | _ => false

def portrays : Request → Bool
  | profile _ | photos _ | photoLink _ => true
  | _ => false

def attends : Request → Bool
  | lastEvent _ | appendEvent _ _ => true
  | r => r.portrays

theorem attends_of_portrays (r : Request) (portrays : r.portrays) : r.attends := by
  cases r <;> first | rfl | cases portrays

theorem isPlain_of_portrays (r : Request) (portrays : r.portrays) : r.isPlain := by
  cases r <;> first | rfl | cases portrays

/-- The failure that a reply tells of. Notifications and chance have none to tell. -/
def failure? : (r : Request) → r.Reply → Option StoreError
  | profile _, .error e => some e
  | preferences _, .error e => some e
  | validUsers, .error e => some e
  | createAttempt _ _, .error e => some e
  | pendingOfPair _ _, .error e => some e
  | latestOfPair _ _, .error e => some e
  | finishAttempt _ _, .error e => some e
  | pendingOf _, .error e => some e
  | likerOf _, .error e => some e
  | appendEvent _ _, .error e => some e
  | lastEvent _, .error e => some e
  | photos _, .error e => some e
  | photoLink _, .error e => some e
  | createChat _ _, .error e => some e
  | _, _ => none

def reckonsWith : Request → StoreError → Bool
  | createAttempt _ _, .pendingConflict _ _ => true
  | finishAttempt _ _, .notPending _ => true
  | _, _ => false

/-- Whether a candidate is being chosen after that request: from the question who the valid users
are to the request for an attempt. -/
def choosing : Bool → Request → Bool
  | _, validUsers => true
  | _, createAttempt _ _ => false
  | choosing, _ => choosing

/-- What errors call the step in which a request is made, while a candidate is being chosen or
not. A request that cannot fail has no name. -/
def step (choosing : Bool) : Request → String
  | profile _ => if choosing then "can't get candidate profile" else "can't get profile"
  | preferences _ =>
    if choosing then "can't get candidate preferences" else "can't get preferences"
  | validUsers => "can't get valid users"
  | createAttempt _ _ => "can't create pair attempt"
  | pendingOfPair _ _ =>
    if choosing then "can't get pending pair attempt"
    else "can't get pending pair attempt by user pair"
  | latestOfPair _ _ => "can't get latest pair attempt"
  | finishAttempt _ _ => "can't finish pair attempt"
  | pendingOf _ => "can't get pending pair attempts"
  | likerOf _ => "can't get who liked me"
  | appendEvent _ _ => "can't create pair event"
  | lastEvent _ => "can't get last pair event"
  | photos _ => "can't get user photos"
  | photoLink _ => "can't make profile photo link"
  | createChat _ _ => "can't create chat"
  | notifyLiked _ _ | notifyMatch _ _ | index _ | health => ""

def alarm? (choosing : Bool) (r : Request) (reply : r.Reply) : Option MatchError :=
  match r.failure? reply with
  | none => none
  | some e =>
    match r.reckonsWith e with
    | true => none
    | false => some (.internal (r.step choosing) (.store e))

end Request

/-- What a program is held to: the requests that it may make, as long as it is told of such profiles
only, and the errors of its own that it may end in. -/
structure Law where
  asks : Request → Prop := fun _ => True
  told : Profile → Prop := fun _ => True
  fails : MatchError → Prop := fun _ => True

namespace Program

variable {α β : Type} {law : Law} {Q : Bool → α → Prop} {R : Bool → β → Prop} {b : Bool}

/-- The program keeps the law, and its value and whether a candidate is being chosen at its end are
related like that. The flag at the start is the last argument but one. -/
def Heeds (law : Law) (Q : Bool → α → Prop) : Bool → Program α → Prop
  | b, done a => Q b a
  | _, fail e => law.fails e
  | b, call r k =>
    law.asks r ∧ (r.isNotice → ∀ reply reply', k reply = k reply') ∧
      ∀ reply, (∀ profile ∈ Exchange.profile? ⟨r, reply⟩, law.told profile) →
        match r.alarm? b reply with
        | some error => k reply = fail error
        | none => Heeds law Q (r.choosing b) (k reply)

/-- What holds at the end of a part that leaves it at that whether a candidate is being chosen. -/
abbrev leaving (b : Bool) (P : α → Prop) : Bool → α → Prop := fun c a => c = b ∧ P a

theorem Heeds.bind {p : Program α} {f : α → Program β} (first : p.Heeds law Q b)
    (rest : ∀ c a, Q c a → (f a).Heeds law R c) : (p >>= f).Heeds law R b := by
  induction p generalizing b with
  | done a => exact rest b a first
  | fail e => exact first
  | call r k ih =>
    obtain ⟨may, silent, after⟩ := first
    refine ⟨may, fun notice reply reply' => ?_, fun reply told => ?_⟩
    · exact congrArg (· >>= f) (silent notice reply reply')
    · have here := after reply told
      change match r.alarm? b reply with
        | some error => k reply >>= f = fail error
        | none => (k reply >>= f).Heeds law R (r.choosing b)
      cases raised : r.alarm? b reply with
      | some error =>
        rw [raised] at here
        exact congrArg (· >>= f) here
      | none =>
        rw [raised] at here
        exact ih reply here

theorem Heeds.imp {R : Bool → α → Prop} {p : Program α} (heeds : p.Heeds law Q b)
    (weaker : ∀ c a, Q c a → R c a) : p.Heeds law R b := by
  rw [← bind_done p]
  exact heeds.bind weaker

theorem Heeds.go_on {P : α → Prop} {c : Bool} {p : Program α} {f : α → Program β}
    (first : p.Heeds law (leaving c P) b) (rest : ∀ a, P a → (f a).Heeds law R c) :
    (p >>= f).Heeds law R b :=
  first.bind fun _ a ends => ends.1 ▸ rest a ends.2

section Requests

variable {ok : Request → Prop} {P : α → Prop} {p : Program α}

def Makes (ok : Request → Prop) (P : α → Prop) : Program α → Prop
  | done a => P a
  | fail _ => True
  | call r k => ok r ∧ ∀ reply, Makes ok P (k reply)

abbrev Only (ok : Request → Prop) (p : Program α) : Prop := p.Makes ok fun _ => True

theorem Heeds.makes (heeds : p.Heeds { asks := ok } Q b) (value : ∀ c a, Q c a → P a) :
    p.Makes ok P := by
  induction p generalizing b with
  | done a => exact value b a heeds
  | fail e => exact trivial
  | call r k ih =>
    refine ⟨heeds.1, fun reply => ?_⟩
    have after := heeds.2.2 reply fun _ _ => trivial
    split at after
    · rw [after]
      exact trivial
    · exact ih reply after

theorem Heeds.only (heeds : p.Heeds { asks := ok } Q b) : p.Only ok :=
  heeds.makes fun _ _ _ => trivial

end Requests

end Program

namespace Engine
open Program

variable {law : Law} {b : Bool} {ruler : Geo.Ruler} {person : Person}

theorem heeds_append {id : AttemptId} {h : Happening} (may : law.asks (.appendEvent id h)) :
    (append id h).Heeds law (leaving b fun _ => True) b := by
  refine ⟨may, nofun, ?_⟩
  rintro (e | event) _
  · exact rfl
  · exact ⟨rfl, trivial⟩

theorem heeds_lastHappening {id : AttemptId} (may : law.asks (.lastEvent id)) :
    (lastHappening id).Heeds law (leaving b fun _ => True) b := by
  refine ⟨may, nofun, ?_⟩
  rintro (e | last) _
  · exact rfl
  · exact ⟨rfl, trivial⟩

def Shows (law : Law) (shown : Option Showcase) : Prop :=
  ∀ partner ∈ shown, law.told partner.profile

section Portraits

variable (portrays : ∀ r : Request, r.portrays → law.asks r)

include portrays

theorem heeds_linkPhotos (keys : List String) :
    (linkPhotos keys).Heeds law (leaving b fun _ => True) b := by
  induction keys with
  | nil => exact ⟨rfl, trivial⟩
  | cons key rest ih =>
    refine ⟨portrays _ rfl, nofun, ?_⟩
    rintro (e | link) _
    · exact rfl
    · exact Heeds.go_on (p := linkPhotos rest) ih fun photos _ => ⟨rfl, trivial⟩

theorem heeds_partnerNotice (user : UserId) :
    (partnerNotice user).Heeds law (leaving false fun _ => True) false := by
  refine ⟨portrays _ rfl, nofun, ?_⟩
  rintro (e | profile) _
  · exact rfl
  refine ⟨portrays _ rfl, nofun, ?_⟩
  rintro (e | _ | ⟨key, rest⟩) _
  · exact rfl
  · exact ⟨rfl, trivial⟩
  refine ⟨portrays _ rfl, nofun, ?_⟩
  rintro (e | link) _
  · exact rfl
  · exact ⟨rfl, trivial⟩

variable (unshown : ∀ v, law.fails (.internal "can't get profile" (.missingProfile v)))

include unshown

theorem heeds_showcase (user : UserId) :
    (showcase user).Heeds law (leaving false fun partner => law.told partner.profile) false := by
  refine ⟨portrays _ rfl, nofun, ?_⟩
  rintro (e | _ | profile) told
  · exact rfl
  · exact unshown user
  refine ⟨portrays _ rfl, nofun, ?_⟩
  rintro (e | keys) _
  · exact rfl
  · exact Heeds.go_on (p := linkPhotos keys) (heeds_linkPhotos portrays keys) fun photos _ =>
      ⟨rfl, told profile rfl⟩

theorem heeds_showcase_some (user : UserId) :
    (showcase user >>= fun partner => done (some partner)).Heeds law (leaving false (Shows law))
      false := by
  refine (heeds_showcase portrays unshown user).go_on fun partner told => ⟨rfl, ?_⟩
  simpa [Shows] using told

end Portraits

section Showing

theorem portrays_of_attends (attends : ∀ r : Request, r.attends → law.asks r) (r : Request)
    (portrays : r.portrays) : law.asks r :=
  attends r (r.attends_of_portrays portrays)

variable (attends : ∀ r : Request, r.attends → law.asks r)

include attends

theorem heeds_completeShowing (id : AttemptId) (last : Option Happening) :
    (completeShowing id last).Heeds law (leaving b fun _ => True) b := by
  have shown : (if last ≠ some .shownToFirst then append id .shownToFirst
      else pure () : Program Unit).Heeds law (leaving b fun _ => True) b := by
    split
    · exact heeds_append (attends _ rfl)
    · exact ⟨rfl, trivial⟩
  unfold completeShowing
  dsimp only
  split
  · exact (heeds_append (attends _ rfl)).go_on fun _ _ => shown
  · exact shown

variable (unshown : ∀ v, law.fails (.internal "can't get profile" (.missingProfile v)))

include unshown

theorem heeds_hangingAmong (as : List Attempt) :
    (hangingAmong as).Heeds law (leaving false (Shows law)) false := by
  induction as with
  | nil => exact ⟨rfl, nofun⟩
  | cons a rest ih =>
    refine (heeds_lastHappening (attends _ rfl)).go_on fun last _ => ?_
    split
    · refine (heeds_completeShowing attends a.id last).go_on fun _ _ => ?_
      exact heeds_showcase_some (portrays_of_attends attends) unshown a.second
    · exact ih

theorem heeds_hangingPartner {user : UserId} (may : law.asks (.pendingOf user)) :
    (hangingPartner user).Heeds law (leaving false (Shows law)) false := by
  refine ⟨may, nofun, ?_⟩
  rintro (e | as) _
  · exact rfl
  · exact heeds_hangingAmong attends unshown as

theorem heeds_liker {user : UserId} (may : law.asks (.likerOf user)) :
    (liker user).Heeds law (leaving false (Shows law)) false := by
  refine ⟨may, nofun, ?_⟩
  rintro (e | _ | a) _
  · exact rfl
  · exact ⟨rfl, nofun⟩
  refine Heeds.go_on (p := lastHappening a.id) (heeds_lastHappening (attends _ rfl))
    fun last _ => ?_
  dsimp only
  have shown := heeds_showcase_some (portrays_of_attends attends) unshown a.first
  split
  · exact (heeds_append (attends _ rfl)).go_on fun _ _ => shown
  · exact shown

end Showing

section Choosing

theorem heeds_completePerson {user : UserId} (profile : law.asks (.profile user))
    (preferences : law.asks (.preferences user)) (incomplete : law.fails .incompleteProfile) :
    (completePerson user).Heeds law (leaving false fun _ => True) false := by
  refine ⟨profile, nofun, ?_⟩
  rintro (e | profile) _
  · exact rfl
  refine ⟨preferences, nofun, ?_⟩
  rintro (e | preferences) _
  · exact rfl
  cases profile with
  | none => cases preferences <;> exact incomplete
  | some profile =>
    cases preferences with
    | none => exact incomplete
    | some preferences =>
      change (if (Person.mk profile preferences).isComplete then _ else _ : Program Person).Heeds
        law _ false
      split
      · exact ⟨rfl, trivial⟩
      · exact incomplete

variable (plain : ∀ r : Request, r.isPlain → law.asks r)

include plain

theorem heeds_consider (buckets : Buckets) (id : UserId) :
    (consider ruler person buckets id).Heeds law
      (leaving true fun found => ∀ v ∈ found.candidates,
        v ∈ buckets.candidates ∨ v = id ∧ v ≠ person.profile.userId) true := by
  have nobody : leaving true (fun found => ∀ v ∈ found.candidates,
      v ∈ buckets.candidates ∨ v = id ∧ v ≠ person.profile.userId) true buckets :=
    ⟨rfl, fun v mem => Or.inl mem⟩
  unfold consider
  dsimp only
  split
  · exact nobody
  next other =>
  refine ⟨plain _ rfl, nofun, ?_⟩
  rintro (e | _ | preferences) _
  · exact rfl
  · exact nobody
  refine ⟨plain _ rfl, nofun, ?_⟩
  rintro (e | _ | profile) _
  · exact rfl
  · exact nobody
  change (if _ then _ else _ : Program Buckets).Heeds law _ true
  split
  · exact nobody
  refine ⟨plain _ rfl, nofun, ?_⟩
  rintro (e | pending) _
  · exact rfl
  change (if _ then _ else _ : Program Buckets).Heeds law _ true
  split
  · exact nobody
  refine ⟨plain _ rfl, nofun, ?_⟩
  rintro (e | latest) _
  · exact rfl
  refine ⟨rfl, fun v mem => ?_⟩
  rcases Buckets.mem_candidates_insert mem with rfl | mem
  · exact Or.inr ⟨rfl, other⟩
  · exact Or.inl mem

theorem heeds_collect (buckets : Buckets) (ids : List UserId) :
    (collect ruler person buckets ids).Heeds law
      (leaving true fun found => ∀ v ∈ found.candidates,
        v ∈ buckets.candidates ∨ v ∈ ids ∧ v ≠ person.profile.userId) true := by
  induction ids generalizing buckets with
  | nil => exact ⟨rfl, fun v mem => Or.inl mem⟩
  | cons id rest ih =>
    refine (heeds_consider plain buckets id).go_on fun buckets' filed => ?_
    refine (ih buckets').imp fun c found ends => ⟨ends.1, fun v mem => ?_⟩
    rcases ends.2 v mem with mem | ⟨mem, other⟩
    · refine (filed v mem).imp_right ?_
      rintro ⟨rfl, other⟩
      exact ⟨List.mem_cons_self, other⟩
    · exact Or.inr ⟨List.mem_cons_of_mem id mem, other⟩

theorem heeds_pick (ids : List UserId) :
    (collect ruler person {} ids >>= Buckets.pick).Heeds law
      (leaving true fun chosen => ∀ v ∈ chosen, v ∈ ids ∧ v ≠ person.profile.userId) true := by
  refine (heeds_collect plain {} ids).go_on fun buckets filed => ?_
  have among {index : Nat} (v : UserId) (found : v ∈ buckets.answer index) :
      v ∈ ids ∧ v ≠ person.profile.userId :=
    (filed v (Buckets.answer_mem found)).resolve_left List.not_mem_nil
  unfold Buckets.pick
  split
  · exact ⟨plain _ rfl, nofun, fun _ _ => ⟨rfl, among⟩⟩
  · exact ⟨rfl, among⟩

theorem heeds_chooseCandidate :
    (chooseCandidate ruler person).Heeds law (leaving true fun _ => True) b := by
  refine ⟨plain _ rfl, nofun, ?_⟩
  rintro (e | ids) _
  · exact rfl
  · exact (heeds_pick plain ids).imp fun c chosen ends => ⟨ends.1, trivial⟩

variable (attends : ∀ r : Request, r.attends → law.asks r)
  (unshown : ∀ v, law.fails (.internal "can't get profile" (.missingProfile v)))

include attends unshown

theorem heeds_freshPartner (opens : ∀ v, law.asks (.createAttempt person.profile.userId v))
    (rounds : Nat) :
    (freshPartner ruler person rounds).Heeds law (fun _ => Shows law) b := by
  induction rounds generalizing b with
  | zero => exact nofun
  | succ rounds ih =>
    refine (heeds_chooseCandidate plain).go_on fun chosen _ => ?_
    cases chosen with
    | none => exact nofun
    | some candidate =>
      refine ⟨opens candidate, nofun, ?_⟩
      rintro (e | a) _
      · cases e with
        | pendingConflict u v => exact ih
        | _ => exact rfl
      · refine Heeds.go_on (p := append a.id .created) (heeds_append (attends _ rfl)) fun _ _ => ?_
        refine (heeds_append (attends _ rfl)).go_on fun _ _ => ?_
        exact (heeds_showcase_some (portrays_of_attends attends) unshown candidate).imp
          fun _ _ ends => ends.2

end Choosing

theorem heeds_nextPartner (asks : ∀ r, law.asks r) (fails : ∀ e, law.fails e) (retries : Nat)
    (principal : Principal) :
    (nextPartner ruler retries principal).Heeds law (fun _ partner => law.told partner.profile)
      false := by
  have attends (r : Request) (_ : r.attends) : law.asks r := asks r
  have unshown (v : UserId) : law.fails (.internal "can't get profile" (.missingProfile v)) :=
    fails _
  unfold nextPartner asUser
  split
  · next user _ =>
    refine (heeds_completePerson (asks _) (asks _) (fails _)).go_on fun person _ => ?_
    refine (heeds_hangingPartner attends unshown (asks _)).go_on fun hanging shows => ?_
    cases hanging with
    | some partner => exact shows partner rfl
    | none =>
      refine (heeds_liker attends unshown (asks _)).go_on fun liker shows => ?_
      cases liker with
      | some partner => exact shows partner rfl
      | none =>
        refine (heeds_freshPartner (fun r _ => asks r) attends unshown (fun _ => asks _)
          (retries + 1)).bind
          fun c fresh shows => ?_
        cases fresh with
        | some partner => exact shows partner rfl
        | none => exact fails _
  · exact fails _

section Answering

structure AllowsNews (law : Law) : Prop where
  portrays : ∀ r : Request, r.portrays → law.asks r
  tells : ∀ r : Request, r.isNotice → law.asks r
  pairs : ∀ u v, law.asks (.createChat u v)

/-- The law allows what an answer to an attempt asks for, and that it comes too late. -/
structure AllowsAnswers (law : Law) : Prop extends AllowsNews law where
  looks : ∀ id, law.asks (.lastEvent id)
  notes : ∀ id h, law.asks (.appendEvent id h)
  moves : ∀ id state, law.asks (.finishAttempt id state)
  late : ∀ u v, law.fails (.noPendingAttempt u v)

variable {a : Attempt}

section News

variable (news : AllowsNews law)

include news

theorem heeds_announceMatch (u v : UserId) :
    (announceMatch u v).Heeds law (leaving false fun _ => True) false := by
  refine (heeds_partnerNotice news.portrays u).go_on fun aboutFirst _ => ?_
  refine (heeds_partnerNotice news.portrays v).go_on fun aboutSecond _ => ?_
  refine ⟨news.tells _ rfl, fun _ _ _ => rfl, fun _ _ => ?_⟩
  exact ⟨news.tells _ rfl, fun _ _ _ => rfl, fun _ _ => ⟨rfl, trivial⟩⟩

theorem heeds_settle_first (user : UserId) :
    (settle a user .first .like).Heeds law (leaving false fun _ => True) false := by
  refine (heeds_partnerNotice news.portrays user).go_on fun notice _ => ?_
  exact ⟨news.tells _ rfl, fun _ _ _ => rfl, fun _ _ => ⟨rfl, trivial⟩⟩

theorem heeds_createChat :
    (send (.createChat a.first a.second) >>= fun reply =>
      expect "can't create chat" reply >>= fun _ => announceMatch a.first a.second).Heeds law
        (leaving false fun _ => True) false := by
  refine ⟨news.pairs _ _, nofun, ?_⟩
  rintro (e | chat) _
  · exact rfl
  · exact heeds_announceMatch news a.first a.second

end News

variable (answers : AllowsAnswers law)

include answers

theorem heeds_moveTo (swiper : UserId) (state : State) :
    (moveTo a swiper state).Heeds law (leaving b fun _ => True) b := by
  refine ⟨answers.moves _ _, nofun, ?_⟩
  rintro (e | _) _
  · cases e with
    | notPending id => exact answers.late _ _
    | _ => exact rfl
  · exact ⟨rfl, trivial⟩

theorem heeds_finish (swiper : UserId) (state : State) :
    (finish a swiper state).Heeds law (leaving b fun _ => True) b := by
  unfold finish
  split
  · exact (heeds_append (answers.notes _ _)).go_on fun _ _ => heeds_moveTo answers swiper state
  · exact heeds_moveTo answers swiper state

theorem heeds_settle (user : UserId) (side : Role) (verdict : Verdict) :
    (settle a user side verdict).Heeds law (leaving false fun _ => True) false := by
  cases verdict with
  | dislike => cases side <;> exact heeds_finish answers user .mismatched
  | like =>
    cases side with
    | first => exact heeds_settle_first answers.toAllowsNews user
    | second =>
      refine (heeds_finish answers user .matched).go_on fun _ _ => ?_
      exact heeds_createChat answers.toAllowsNews

theorem heeds_swipe {principal : Principal} {candidate : UserId}
    (may : law.asks (.pendingOfPair principal.id candidate))
    (unauthenticated : law.fails .unauthenticated) (verdict : Verdict) :
    (swipe principal candidate verdict).Heeds law (leaving false fun _ => True) false := by
  unfold swipe asUser identify
  by_cases nobody : principal.id = 0
  · rw [if_pos nobody]
    exact unauthenticated
  rw [if_neg nobody]
  refine ⟨may, nofun, ?_⟩
  rintro (e | _ | a) _
  · exact rfl
  · exact answers.late _ _
  dsimp only [Request.alarm?, Request.failure?, Program.bind, expect_ok, done_bind]
  split
  · next side _ =>
    refine (heeds_lastHappening (answers.looks _)).go_on fun last _ => ?_
    split
    · exact answers.late _ _
    · refine (heeds_append (answers.notes _ _)).go_on fun _ _ => ?_
      exact heeds_settle answers principal.id side verdict
  · exact answers.late _ _

end Answering

section Kinds

abbrev Plain (r : Request) : Prop := r.isPlain

abbrev Aside (r : Request) : Prop := ¬r.seeks

theorem aside_of_plain (r : Request) (plain : Plain r) : Aside r := by
  cases r <;> first | exact Bool.false_ne_true | cases plain

theorem aside_of_attends (r : Request) (attends : r.attends) : Aside r := by
  cases r <;> first | exact Bool.false_ne_true | cases attends

theorem aside_of_notice (r : Request) (notice : r.isNotice) : Aside r := by
  cases r <;> first | exact Bool.false_ne_true | cases notice

theorem only_linkPhotos (keys : List String) : (linkPhotos keys).Only Plain :=
  Heeds.only (b := false) (heeds_linkPhotos Request.isPlain_of_portrays keys)

theorem only_showcase (user : UserId) : (showcase user).Only Plain :=
  Heeds.only (heeds_showcase Request.isPlain_of_portrays (fun _ => trivial) user)

theorem only_partnerNotice (user : UserId) : (partnerNotice user).Only Plain :=
  Heeds.only (heeds_partnerNotice Request.isPlain_of_portrays user)

theorem only_completePerson (user : UserId) : (completePerson user).Only Plain :=
  Heeds.only (heeds_completePerson rfl rfl trivial)

theorem only_chooseCandidate : (chooseCandidate ruler person).Only Plain :=
  Heeds.only (b := false) (heeds_chooseCandidate fun _ plain => plain)

theorem makes_pick (ids : List UserId) :
    (collect ruler person {} ids >>= Buckets.pick).Makes Plain fun chosen =>
      ∀ v ∈ chosen, v ∈ ids ∧ v ≠ person.profile.userId :=
  Heeds.makes (heeds_pick (fun _ plain => plain) ids) fun _ _ ends => ends.2

end Kinds

end Engine

/-- Every call keeps the law that allows everything. -/
theorem Call.heeds (c : Call) (ruler : Geo.Ruler) :
    (c.program ruler).Heeds {} (fun _ _ => True) false := by
  cases c with
  | next retries principal =>
    exact (Engine.heeds_nextPartner (fun _ => trivial) (fun _ => trivial) retries principal).bind
      fun _ _ _ => trivial
  | swipe principal candidate verdict =>
    have answers : Engine.AllowsAnswers {} :=
      { portrays := fun _ _ => trivial, tells := fun _ _ => trivial, pairs := fun _ _ => trivial
        looks := fun _ => trivial, notes := fun _ _ => trivial, moves := fun _ _ => trivial
        late := fun _ _ => trivial }
    exact (Engine.heeds_swipe answers trivial trivial verdict).bind fun _ _ _ => trivial

end Matchmaking
