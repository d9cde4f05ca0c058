import Mathlib.Data.Set.Subsingleton
import Mathlib.Logic.Function.Basic
import Matchmaking.Proofs.Engine.Search
import Matchmaking.Proofs.Engine.Sequel
import Matchmaking.Proofs.Traffic.Consent
import Matchmaking.Proofs.Traffic.Schedule
/-! One open proposal per person. Nothing but the log remembers what a call was about when it was
cut off, so `nextPartner` first looks through the pending attempts of its caller. As long as no user
has two calls in flight at once, this search misses nothing. -/
namespace Matchmaking
namespace Happening

def isOffer : Happening → Bool
  | created | shownToFirst => true
  | _ => false

theorem awaitingFirst_of_isOffer {h : Happening} (offer : h.isOffer) :
    Stage.after (some h) = .awaitingFirst := by
  cases h <;> first | rfl | cases offer

theorem isOffer_of_awaitingFirst {h : Happening} (begun : Stage.after (some h) = .awaitingFirst) :
    h.isOffer := by
  cases h <;> first | rfl | cases begun

theorem side_of_grounds {story : List Happening} {h : Happening} (offers : ∀ k ∈ story, k.isOffer)
    (grounds : Grounds story h) (other : h.isOffer = false) :
    h.isTerminal = false ∧ h.side = .first := by
  have absent {k : Happening} (answer : k.isOffer = false) : k ∉ story := by
    intro mem
    have offer := offers k mem
    rw [answer] at offer
    cases offer
  cases h with
  | created => cases other
  | shownToFirst => cases other
  | firstLiked => exact ⟨rfl, rfl⟩
  | firstDisliked => exact ⟨rfl, rfl⟩
  | shownToSecond => exact absurd grounds (absent rfl)
  | secondLiked => exact absurd grounds (absent rfl)
  | secondDisliked => exact absurd grounds (absent rfl)
  | paired => exact absurd (grounds.subset List.mem_cons_self) (absent rfl)
  | failed => exact (grounds.elim (absent rfl) (absent rfl)).elim

theorem GoesOn.awaitingFirst {last : Option Happening} {h : Happening} (goesOn : GoesOn last h)
    (offer : h.isOffer) : Stage.after last = .awaitingFirst := by
  rcases goesOn with valid | ⟨rfl, _⟩
  · rcases last with _ | last
    · rfl
    · cases h <;> cases offer <;> cases last <;> first | rfl | cases valid
  · rfl

end Happening

namespace Store

variable {s s' : Store} {a b : Attempt} {id : AttemptId} {user : UserId}

def IsUnanswered (s : Store) (id : AttemptId) : Prop := ∀ h ∈ s.story id, h.isOffer

theorem IsUnanswered.stage (unanswered : s.IsUnanswered id) : s.stage id = .awaitingFirst := by
  rw [Store.stage, lastHappening?_eq]
  cases last : (s.story id).getLast? with
  | none => rfl
  | some h =>
    exact Happening.awaitingFirst_of_isOffer (unanswered h (List.mem_of_getLast? last))

end Store

namespace Search

variable {s s' : Store} {user : UserId} {pos : Search} {r : Request} {reply : r.Reply}

/-- The search has not missed a proposal of its caller. -/
def Covers (s : Store) (user : UserId) : Search → Prop
  | closed => True
  | among as => ∀ a, s.IsProposal a → a.first = user → a ∈ as

/-- What is served to a search leads it on without a miss, as long as a proposal that comes up
closes it. -/
theorem Covers.serves (covers : pos.Covers s user) (permitted : permits user pos r)
    (served : s.Serves r reply s')
    (kept : ∀ a, s'.IsProposal a → a.first = user → s.IsProposal a ∨ next pos r reply = closed) :
    (next pos r reply).Covers s' user := by
  cases pos with
  | closed =>
    rcases permitted with aside | rfl
    · have here : next closed r reply = closed := by
        cases r <;> first | rfl | exact absurd rfl aside
      rw [here]
      trivial
    · cases served with
      | pendingOf all =>
        intro a proposal own
        exact (all a).2 ⟨proposal.mem, own, proposal.pending⟩
  | among as =>
    cases as with
    | nil =>
      cases led : next (among []) r reply with
      | closed => trivial
      | among as =>
        intro a proposal own
        rcases kept a proposal own with before | closes
        · exact absurd (covers a before own) List.not_mem_nil
        · rw [led] at closes
          cases closes
    | cons a rest =>
      have asked : r = .lastEvent a.id := permitted
      subst asked
      cases served
      have led : next (among (a :: rest)) (.lastEvent a.id) (.ok (s.lastEvent? a.id)) =
          if s.stage a.id = .awaitingFirst then closed else among rest := rfl
      rw [led]
      split
      · trivial
      · next passed =>
        intro b proposal own
        rcases List.mem_cons.1 (covers b proposal own) with rfl | mem
        · exact absurd proposal.begun passed
        · exact mem

theorem next_refusal (pos : Search) (r : Request) (e : StoreError) :
    next pos r (r.refusal e) = pos := by
  cases pos with
  | closed => cases r <;> rfl
  | among as => cases as <;> cases r <;> rfl

theorem of_opening {c : Call} {a : Attempt} (led : c.noticing r reply = .writing a .created)
    (permitted : permits user pos r) : pos = among [] ∧ next pos r reply = closed := by
  cases r with
  | createAttempt u v =>
    cases reply with
    | error e => cases led
    | ok b =>
      cases pos with
      | closed =>
        rcases permitted with aside | other
        · exact absurd rfl aside
        · cases other
      | among as =>
        cases as with
        | nil => exact ⟨rfl, rfl⟩
        | cons b rest => cases permitted
  | pendingOfPair u v =>
    rcases reply with e | _ | b
    · cases led
    · cases led
    · cases c with
      | next retries principal => cases led
      | swipe principal candidate verdict =>
        simp only [Call.noticing] at led
        split at led <;> cases led
  | pendingOf u =>
    cases reply with
    | error e => cases led
    | ok as => cases as <;> cases led
  | likerOf u => rcases reply with e | _ | b <;> cases led
  | _ => cases led

end Search

namespace Acts

variable {faulty : Prop} {c : Call} {s s' : Store} {st st' : Stance} {x : Exchange} {a : Attempt}

theorem isProposal (acts : Acts faulty c s st x st' s') (known : st.Knows c s)
    (offers : ∀ b h, st = .writing b h → h.isOffer → s.IsUnanswered b.id)
    (proposal : s'.IsProposal a) :
    s.IsProposal a ∨ (st = .free ∧ st' = .writing a .created ∧ a.first = c.user) := by
  obtain ⟨mem, pending, begun⟩ := proposal
  cases acts with
  | @opens b _ clock first =>
    rcases List.mem_append.1 mem with old | new
    · exact Or.inl ⟨old, pending, begun⟩
    · rw [List.mem_singleton.1 new]
      exact Or.inr ⟨rfl, rfl, first⟩
  | @writes b e clock about =>
    refine Or.inl ⟨mem, pending, ?_⟩
    by_cases here : e.attempt = a.id
    · rw [← here, Store.stage, Store.lastHappening?_withEvent_self] at begun
      have offer := Happening.isOffer_of_awaitingFirst begun
      rw [← here, about]
      exact (offers b e.happening rfl offer).stage
    · rw [Store.stage, Store.lastHappening?_eq, Store.story_withEvent_of_ne clock here,
        ← Store.lastHappening?_eq] at begun
      exact begun
  | @moves b d state =>
    obtain ⟨_, h, closes, _⟩ := known
    obtain ⟨old, stored, same⟩ := Store.mem_attempts_setState.1 mem
    by_cases here : old.id = b.id
    · rw [if_pos here] at same
      rw [same] at pending
      have open_ : state = .pending := beq_iff_eq.1 pending
      rw [open_] at closes
      cases closes
    · rw [if_neg here] at same
      rw [same] at begun pending ⊢
      exact Or.inl ⟨stored, pending, begun⟩
  | _ => exact Or.inl ⟨mem, pending, begun⟩

end Acts

namespace Traffic

variable {ruler : Geo.Ruler} {t t' : Traffic} {places : CallId → Search} {i j : CallId}
  {c d : Call} {st st' : Stance} {x : Exchange} {s : Store} {p : Program Call.Result}

/-- No user starts a call while one of their own is in flight; any call may fail or be dropped. -/
def Rules.fragile : Rules := ⟨Rules.oneEach.mayStart, True⟩

structure Proposing (t : Traffic) (places : CallId → Search) : Prop where
  keeps : ∀ {i : CallId} {c : Call} {p : Program Call.Result}, t.flights[i]? = some ⟨c, p⟩ →
    p.isRunning → p.Keeps (Search.protocol c.user) (fun _ _ => True) (places i)
  single : ∀ {i j c d st st'}, t.Runs i c st → t.Runs j d st' → c.user = d.user → i = j
  offers : ∀ {i c a h}, t.Runs i c (.writing a h) → h.isOffer → t.store.IsUnanswered a.id
  unanswered : ∀ id, t.store.stage id = .awaitingFirst → t.store.IsUnanswered id
  searching : ∀ {i c st}, t.Runs i c st → (places i).Covers t.store c.user
  unique : ∀ a b, t.store.IsProposal a → t.store.IsProposal b → a.first = b.first → a = b

namespace Proposing

theorem opening (fresh : s.IsFresh) : (opening s).Proposing places where
  keeps found := by simp [Traffic.opening] at found
  single runs := absurd runs (not_runs_of_isQuiet rfl)
  offers runs := absurd runs (not_runs_of_isQuiet rfl)
  unanswered id _ h mem := by
    simp [Traffic.opening, Store.story, Store.eventsOf, fresh.log] at mem
  searching runs := absurd runs (not_runs_of_isQuiet rfl)
  unique a b proposal := by
    have mem := proposal.mem
    simp [Traffic.opening, fresh.attempts] at mem

theorem launch (proposing : t.Proposing places) (sound : t.Sound)
    (allowed : Rules.oneEach.mayStart t c) :
    (t.launch ruler c).Proposing (Function.update places t.flights.length .closed) where
  keeps {i d p} found running := by
    rcases flight_launch found with found | ⟨rfl, same⟩
    · rw [Function.update_of_ne (Nat.ne_of_lt (List.getElem?_eq_some_iff.1 found).1)]
      exact proposing.keeps found running
    · obtain ⟨rfl, rfl⟩ := Flight.mk.inj same
      rw [Function.update_self]
      exact Search.keeps_program d ruler
  single runs runs' same := by
    rcases sound.abides.runs_launch runs with ran | ⟨rfl, rfl, _⟩ <;>
      rcases sound.abides.runs_launch runs' with ran' | ⟨rfl, rfl, _⟩
    · exact proposing.single ran ran' same
    · exact absurd same (allowed _ _ _ ran)
    · exact absurd same.symm (allowed _ _ _ ran')
    · rfl
  offers runs offer := by
    rcases sound.abides.runs_launch runs with ran | ⟨_, _, free⟩
    · exact proposing.offers ran offer
    · cases free
  unanswered := proposing.unanswered
  searching {i d st} runs := by
    rcases sound.abides.runs_launch runs with ran | ⟨rfl, _, _⟩
    · obtain ⟨r, k, found⟩ := ran.aloft
      rw [Function.update_of_ne (Nat.ne_of_lt (List.getElem?_eq_some_iff.1 found).1)]
      exact proposing.searching ran
    · rw [Function.update_self]
      trivial
  unique := proposing.unique

theorem drop (proposing : t.Proposing places) (i : CallId) : (t.drop i).Proposing places where
  keeps found running := proposing.keeps (flight_drop found running).2 running
  single runs runs' := proposing.single (runs_drop runs).2 (runs_drop runs').2
  offers runs := proposing.offers (runs_drop runs).2
  unanswered := proposing.unanswered
  searching runs := proposing.searching (runs_drop runs).2
  unique := proposing.unique

section Turning

variable {faulty : Prop}

theorem isOffer_of_turn (proposing : t.Proposing places) (sound : t.Sound) {a b : Attempt}
    {h k : Happening} (turn : t.Turn faulty i c (.writing a h) x st' s p)
    (runs : t.Runs j d (.writing b k)) (other : j ≠ i) (offer : k.isOffer) (same : a.id = b.id) :
    h.isOffer := by
  by_contra answer
  obtain ⟨known, may, grounds⟩ := sound.known turn.runs
  obtain ⟨known', may', _⟩ := sound.known runs
  have untold := proposing.offers runs offer
  rw [same] at grounds
  obtain ⟨open_, side⟩ := Happening.side_of_grounds untold grounds (by simpa using answer)
  have side' : k.isTerminal = false ∧ k.side = .first := by
    cases k <;> first | exact ⟨rfl, rfl⟩ | cases offer
  have own := may.side open_
  have own' := may'.side side'.1
  rw [side] at own
  rw [side'.2] at own'
  have people := t.store.person_congr sound.register known known' same .first
  exact other (proposing.single runs turn.runs (own'.symm.trans (people.symm.trans own)))

theorem unanswered_proceed (proposing : t.Proposing places)
    (turn : t.Turn faulty i c st x st' s p) (id : AttemptId)
    (begun : s.stage id = .awaitingFirst) : s.IsUnanswered id := by
  rcases turn.acts.story_eq id with same | ⟨a, h, took, here, longer⟩
  · rw [Store.stage, Store.lastHappening?_eq, same, ← Store.lastHappening?_eq] at begun
    rw [Store.IsUnanswered, same]
    exact proposing.unanswered id begun
  · rw [Store.stage, Store.lastHappening?_eq, longer, List.getLast?_append] at begun
    have offer := Happening.isOffer_of_awaitingFirst begun
    have runs := turn.runs
    rw [took] at runs
    have before := proposing.offers runs offer
    rw [here] at before
    rw [Store.IsUnanswered, longer]
    intro k mem
    rcases List.mem_append.1 mem with mem | mem
    · exact before k mem
    · rw [List.mem_singleton.1 mem]
      exact offer

theorem offers_proceed (proposing : t.Proposing places) (sound : t.Sound)
    (turn : t.Turn faulty i c st x st' s p) {a : Attempt} {h : Happening}
    (runs : (t.proceed i x p s).Runs j d (.writing a h)) (offer : h.isOffer) :
    s.IsUnanswered a.id := by
  rcases turn.before runs with ⟨_, _, led⟩ | ⟨other, ran⟩
  · have goesOn := turn.acts.goesOn_of_writing sound.exists_of_logged led.symm
    exact proposing.unanswered_proceed turn a.id (goesOn.awaitingFirst offer)
  · have before := proposing.offers ran offer
    rcases turn.acts.story_eq a.id with same | ⟨b, k, rfl, here, longer⟩
    · rw [Store.IsUnanswered, same]
      exact before
    · have offer' := proposing.isOffer_of_turn sound turn ran other offer here
      rw [Store.IsUnanswered, longer]
      intro l mem
      rcases List.mem_append.1 mem with mem | mem
      · exact before l mem
      · rw [List.mem_singleton.1 mem]
        exact offer'

theorem isProposal_of_turn (proposing : t.Proposing places) (sound : t.Sound)
    (turn : t.Turn faulty i c st x st' s p) {a : Attempt} (proposal : s.IsProposal a) :
    t.store.IsProposal a ∨ (st = .free ∧ st' = .writing a .created ∧ a.first = c.user) := by
  refine turn.acts.isProposal (sound.known turn.runs) ?_ proposal
  rintro b h rfl offer
  exact proposing.offers turn.runs offer

theorem of_opening (turn : t.Turn faulty i c st x st' s p) {a : Attempt} (free : st = .free)
    (led : st' = .writing a .created)
    (permitted : Search.permits c.user (places i) x.request) :
    places i = .among [] ∧ Search.next (places i) x.request x.reply = .closed := by
  have led' := turn.led
  rw [free, led] at led'
  exact Search.of_opening led' permitted

theorem proceed (proposing : t.Proposing places) (sound : t.Sound)
    (turn : t.Turn faulty i c st x st' s p)
    (permitted : Search.permits c.user (places i) x.request)
    (keeps : p.isRunning → p.Keeps (Search.protocol c.user) (fun _ _ => True)
      (Search.next (places i) x.request x.reply))
    (covers : (Search.next (places i) x.request x.reply).Covers s c.user) :
    (t.proceed i x p s).Proposing
      (Function.update places i (Search.next (places i) x.request x.reply)) where
  keeps {j d q} found running := by
    obtain ⟨r, k, aloft⟩ := turn.runs.aloft
    rcases flight_proceed aloft found with ⟨rfl, same⟩ | ⟨ne, found⟩
    · obtain ⟨rfl, rfl⟩ := Flight.mk.inj same
      rw [Function.update_self]
      exact keeps running
    · rw [Function.update_of_ne ne]
      exact proposing.keeps found running
  single runs runs' same := by
    rcases turn.before runs with ⟨rfl, rfl, _⟩ | ⟨_, ran⟩ <;>
      rcases turn.before runs' with ⟨rfl, rfl, _⟩ | ⟨_, ran'⟩
    · rfl
    · exact proposing.single turn.runs ran' same
    · exact proposing.single ran turn.runs same
    · exact proposing.single ran ran' same
  offers runs offer := proposing.offers_proceed sound turn runs offer
  unanswered := proposing.unanswered_proceed turn
  searching {j d sd} runs := by
    rcases turn.before runs with ⟨rfl, rfl, _⟩ | ⟨ne, ran⟩
    · rw [Function.update_self]
      exact covers
    · rw [Function.update_of_ne ne]
      have covered := proposing.searching ran
      cases place : places j with
      | closed => trivial
      | among as =>
        rw [place] at covered
        intro a proposal own
        rcases proposing.isProposal_of_turn sound turn proposal with before | ⟨_, _, theirs⟩
        · exact covered a before own
        · exact absurd (proposing.single ran turn.runs (own.symm.trans theirs)) ne
  unique a b proposal proposal' same := by
    have none_before {a b : Attempt} (old : t.store.IsProposal a) (free : st = .free)
        (led : st' = .writing b .created) (own : a.first = c.user) : False := by
      have found := (of_opening turn free led permitted).1
      have covered := proposing.searching turn.runs
      rw [found] at covered
      exact List.not_mem_nil (covered a old own)
    rcases proposing.isProposal_of_turn sound turn proposal with old | ⟨free, led, own⟩ <;>
      rcases proposing.isProposal_of_turn sound turn proposal' with old' | ⟨free', led', own'⟩
    · exact proposing.unique a b old old' same
    · exact (none_before old free' led' (same.trans own')).elim
    · exact (none_before old' free led (same.symm.trans own)).elim
    · rw [led] at led'
      cases led'
      rfl

end Turning

theorem step (proposing : t.Proposing places) (sound : t.Sound)
    (step : Step ruler .fragile t t') : ∃ places', t'.Proposing places' := by
  cases step with
  | starts c allowed => exact ⟨_, proposing.launch sound allowed⟩
  | @serves i c r k reply s aloft served =>
    have turn : t.Turn False i c _ _ _ _ _ := sound.abides.turn_of_serves aloft served
    obtain ⟨permitted, goes⟩ := proposing.keeps aloft rfl
    refine ⟨_, proposing.proceed sound turn permitted (fun _ => goes reply trivial) ?_⟩
    refine (proposing.searching turn.runs).serves permitted served ?_
    intro a proposal _
    rcases proposing.isProposal_of_turn sound turn proposal with before | ⟨free, led, _⟩
    · exact Or.inl before
    · exact Or.inr (of_opening turn free led permitted).2
  | @refuses i c r k e aloft allowed =>
    have turn : t.Turn True i c _ _ _ _ _ := sound.abides.turn_of_refuses aloft e trivial
    obtain ⟨permitted, goes⟩ := proposing.keeps aloft rfl
    refine ⟨_, proposing.proceed sound turn permitted (fun _ => goes _ trivial) ?_⟩
    rw [Search.next_refusal]
    exact proposing.searching turn.runs
  | @drops i c r k aloft allowed => exact ⟨_, proposing.drop i⟩

end Proposing

theorem Reaches.proposing {s : Store} (reaches : Reaches ruler .fragile (opening s) t)
    (fresh : s.IsFresh) : ∃ places, t.Proposing places := by
  refine (Sound.opening fresh).keeps (P := fun t => ∃ places, t.Proposing places) reaches
    ⟨fun _ => .closed, .opening fresh⟩ ?_
  rintro t t' sound ⟨places, proposing⟩ step
  exact proposing.step sound step

/-- Wherever calls are cut off, as long as no user has two of them in flight, no user is first in
two pending attempts that wait for them. -/
theorem one_open_proposal {s : Store} (fresh : s.IsFresh)
    (reaches : Reaches ruler .fragile (opening s) t) (user : UserId) :
    {a | t.store.IsProposal a ∧ a.first = user}.Subsingleton := by
  obtain ⟨places, proposing⟩ := reaches.proposing fresh
  rintro a ⟨proposal, own⟩ b ⟨proposal', own'⟩
  exact proposing.unique a b proposal proposal' (own.trans own'.symm)

/-- User 1 is cut off twice, once an attempt is opened and once that is told, and asks again, while
user 2 looks for a partner, too. -/
def droppedTwice : Traffic :=
  (Scene.village (fun t c => t.isIdle c.user) true).perform (opening (Store.village [1, 2, 3])) <|
    [.start (.next 0 ⟨1⟩), .start (.next 0 ⟨2⟩)] ++ List.replicate 15 (.turn 0) ++ [.drop 0] ++
      List.replicate 6 (.turn 1) ++ [.start (.next 0 ⟨1⟩)] ++ List.replicate 5 (.turn 2) ++
      [.drop 2] ++ turns 1 ++ [.start (.next 0 ⟨1⟩)] ++ turns 3

theorem reaches_droppedTwice :
    Reaches (fun _ _ => some 0) .fragile (opening (Store.village [1, 2, 3])) droppedTwice := by
  have reaches := Scene.reaches_perform (t := opening (Store.village [1, 2, 3]))
    (Scene.village (fun t c => t.isIdle c.user) true) (Store.isNumbered_village [1, 2, 3])
  refine (reaches _).mono ?_ fun _ => trivial
  intro t c idle i d st runs
  exact runs.user_ne idle

theorem one_open_proposal_droppedTwice :
    (∃ a, droppedTwice.store.IsProposal a ∧ a.first = 1 ∧
        droppedTwice.store.story a.id = [.created, .shownToFirst]) ∧
      {a | droppedTwice.store.IsProposal a ∧ a.first = 1}.Subsingleton := by
  have found : ∃ a ∈ droppedTwice.store.attempts, a.isPending ∧
      droppedTwice.store.stage a.id = .awaitingFirst ∧ a.first = 1 ∧
      droppedTwice.store.story a.id = [.created, .shownToFirst] := by
    decide +kernel
  obtain ⟨a, mem, pending, begun, own, told⟩ := found
  refine ⟨⟨a, ⟨mem, pending, begun⟩, own, told⟩, ?_⟩
  exact one_open_proposal (Store.isFresh_village [1, 2, 3]) reaches_droppedTwice 1

end Traffic
end Matchmaking
