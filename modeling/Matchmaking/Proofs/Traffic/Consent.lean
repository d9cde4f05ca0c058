import Matchmaking.Proofs.Engine.Growth
import Matchmaking.Proofs.Traffic.Turn
/-! No attempt is closed without its grounds. What a call knows where it stands is never undone by
others, so a stale read can disorder a log but cannot forge an answer. -/
namespace Matchmaking

theorem split_append_singleton {α : Type} {front back more : List α} {e d : α}
    (split : more ++ [d] = front ++ e :: back) :
    (front = more ∧ e = d ∧ back = []) ∨
      ∃ back', back = back' ++ [d] ∧ more = front ++ e :: back' := by
  rcases List.eq_nil_or_concat back with rfl | ⟨back', last, rfl⟩
  · obtain ⟨before, same⟩ := List.append_inj' split rfl
    exact Or.inl ⟨before.symm, (List.singleton_inj.1 same).symm, rfl⟩
  · rw [List.concat_eq_append, ← List.cons_append, ← List.append_assoc] at split
    obtain ⟨rfl, same⟩ := List.append_inj' split rfl
    rw [List.singleton_inj.1 same]
    exact Or.inr ⟨back', List.concat_eq_append, rfl⟩

namespace Happening

/-- What has to have happened before this is written of an attempt. -/
def Grounds (story : List Happening) : Happening → Prop
  | shownToSecond | secondLiked | secondDisliked => firstLiked ∈ story
  | paired => [firstLiked, secondLiked].Sublist story
  | failed => firstDisliked ∈ story ∨ secondDisliked ∈ story
  | _ => True

theorem Grounds.mono {story story' : List Happening} {h : Happening} (grounds : Grounds story h)
    (grows : story <+: story') : Grounds story' h := by
  cases h with
  | shownToSecond => exact grows.subset grounds
  | secondLiked => exact grows.subset grounds
  | secondDisliked => exact grows.subset grounds
  | paired => exact List.Sublist.trans grounds grows.sublist
  | failed => exact Or.imp (fun mem => grows.subset mem) (fun mem => grows.subset mem) grounds
  | _ => trivial

def Grounded (story : List Happening) : Prop :=
  ∀ front h back, story = front ++ h :: back → Grounds front h

theorem grounded_nil : Grounded [] := by
  intro front h back split
  simp at split

theorem Grounded.append {story : List Happening} {h : Happening} (grounded : Grounded story)
    (grounds : Grounds story h) : Grounded (story ++ [h]) := by
  intro front k back split
  rcases split_append_singleton split with ⟨rfl, rfl, _⟩ | ⟨back, _, before⟩
  · exact grounds
  · exact grounded front k back before

/-- The second side is waited for only after a like of the first. -/
theorem Grounded.firstLiked_mem {story : List Happening} (grounded : Grounded story)
    (turn : (Stage.after story.getLast?).awaiting = some .second) : firstLiked ∈ story := by
  cases last : story.getLast? with
  | none => simp [last, Stage.after, Stage.awaiting] at turn
  | some h =>
    rw [last] at turn
    obtain ⟨front, split⟩ := List.getLast?_eq_some_iff.1 last
    cases h <;> simp only [Stage.after, Stage.awaiting, reduceCtorEq, Option.some.injEq] at turn
    case firstLiked => exact List.mem_of_getLast? last
    case shownToSecond =>
      have before := grounded front .shownToSecond [] split
      rw [split]
      exact List.mem_append_left _ before

end Happening

/-- A call may write this of an attempt: an event that is not a closing one comes from its side, an
answer comes from a call that gives it, and a closing event from some answer. -/
structure Call.MayWrite (c : Call) (a : Attempt) (h : Happening) : Prop where
  side : h.isTerminal = false → a.person h.side = c.user
  answer : ∀ side verdict, h = .swipe side verdict →
    ∃ principal candidate, c = .swipe principal candidate verdict
  closing : h.isTerminal → c.isSwipe

namespace Call

variable {c : Call} {a : Attempt}

theorem mayWrite_swipe {side : Role} {verdict : Verdict} (role : Role.of a c.user = some side)
    (given : ∃ principal candidate, c = .swipe principal candidate verdict) :
    c.MayWrite a (.swipe side verdict) where
  side _ := by
    rw [Happening.side_swipe]
    exact Role.person_of role
  answer side' verdict' same := by
    have told : verdict = verdict' := by
      cases side <;> cases verdict <;> cases side' <;> cases verdict' <;> first | rfl | cases same
    rw [← told]
    exact given
  closing closes := by simp at closes

theorem mayWrite_showing {h : Happening} (side : a.person h.side = c.user)
    (shows : h = .created ∨ h = .shownToFirst ∨ h = .shownToSecond) : c.MayWrite a h where
  side _ := side
  answer side' verdict same := by
    rcases shows with rfl | rfl | rfl <;> cases side' <;> cases verdict <;> cases same
  closing closes := by rcases shows with rfl | rfl | rfl <;> cases closes

theorem mayWrite_closing {h : Happening} (closing : h.isTerminal) (swipes : c.isSwipe) :
    c.MayWrite a h where
  side open_ := by simp [closing] at open_
  answer side verdict same := by simp [same] at closing
  closing _ := swipes

theorem MayWrite.isSwipe {h : Happening} (may : c.MayWrite a h)
    (resolves : Stage.after (some h) = .resolved) : c.isSwipe := by
  have answers (side : Role) (verdict : Verdict) (same : h = .swipe side verdict) : c.isSwipe := by
    obtain ⟨principal, candidate, rfl⟩ := may.answer side verdict same
    rfl
  cases h <;> simp only [Stage.after, reduceCtorEq] at resolves
  · exact answers .first .dislike rfl
  · exact answers .second .like rfl
  · exact answers .second .dislike rfl
  · exact may.closing rfl
  · exact may.closing rfl

end Call

def Store.IsMatch (s : Store) (a : Attempt) : Prop :=
  ∃ b ∈ s.attempts, b.id = a.id ∧ b.first = a.first ∧ b.second = a.second ∧ b.state = .matched

def Store.IsAnnounced (s : Store) (user : UserId) : Prop :=
  ∃ a ∈ s.attempts, a.second = user ∧ Happening.firstLiked ∈ s.story a.id

/-- What a call knows where it stands. -/
def Stance.Knows (c : Call) (s : Store) : Stance → Prop
  | free => True
  | found a side verdict => s.Knows a ∧ Role.of a c.user = some side ∧
      ∃ principal candidate, c = .swipe principal candidate verdict
  | hanging a rest => ∀ b ∈ a :: rest, s.Knows b ∧ b.first = c.user
  | courted a => s.Knows a ∧ a.second = c.user ∧ Happening.firstLiked ∈ s.story a.id
  | writing a h => s.Knows a ∧ c.MayWrite a h ∧ h.Grounds (s.story a.id)
  | moving a state => s.Knows a ∧ ∃ h, Happening.closing state = some h ∧ h.Grounds (s.story a.id)
  | matching a => s.IsMatch a
  | telling a .liked side rest => s.Knows a ∧ (∀ r ∈ side :: rest, r = .second) ∧
      Happening.firstLiked ∈ s.story a.id
  | telling a .matched _ _ => s.IsMatch a

theorem Store.Grows.isMatch {s s' : Store} (grows : s.Grows s') {a : Attempt}
    (found : s.IsMatch a) : s'.IsMatch a := by
  obtain ⟨b, mem, id, first, second, state⟩ := found
  have done : ¬b.isPending := by simp [Attempt.isPending, state]
  exact ⟨b, grows.mem_attempts mem done, id, first, second, state⟩

theorem Store.Grows.isAnnounced {s s' : Store} (grows : s.Grows s') {user : UserId}
    (told : s.IsAnnounced user) : s'.IsAnnounced user := by
  obtain ⟨a, mem, second, liked⟩ := told
  obtain ⟨b, mem', id, _, second', _⟩ := grows.attempts a mem
  refine ⟨b, mem', second'.trans second, ?_⟩
  rw [id]
  exact (grows.story a.id).subset liked

theorem Stance.Knows.mono {c : Call} {s s' : Store} {st : Stance} (known : st.Knows c s)
    (grows : s.Grows s') : st.Knows c s' := by
  cases st with
  | free => trivial
  | found a side verdict => exact ⟨grows.knows known.1, known.2⟩
  | hanging a rest =>
    intro b mem
    exact ⟨grows.knows (known b mem).1, (known b mem).2⟩
  | courted a => exact ⟨grows.knows known.1, known.2.1, (grows.story a.id).subset known.2.2⟩
  | writing a h => exact ⟨grows.knows known.1, known.2.1, known.2.2.mono (grows.story a.id)⟩
  | moving a state =>
    obtain ⟨here, h, closes, grounds⟩ := known
    exact ⟨grows.knows here, h, closes, grounds.mono (grows.story a.id)⟩
  | matching a => exact grows.isMatch known
  | telling a kind side rest =>
    cases kind with
    | liked => exact ⟨grows.knows known.1, known.2.1, (grows.story a.id).subset known.2.2⟩
    | matched => exact grows.isMatch known

namespace Acts

variable {faulty : Prop} {c : Call} {s s' : Store} {st st' : Stance} {x : Exchange}

theorem story_eq (acts : Acts faulty c s st x st' s') (id : AttemptId) :
    s'.story id = s.story id ∨
      ∃ a h, st = .writing a h ∧ a.id = id ∧ s'.story id = s.story id ++ [h] := by
  rcases acts.eventsOf_eq id with same | ⟨a, e, led, _, _, about, _, longer⟩
  · exact Or.inl (by rw [Store.story, same, Store.story])
  · refine Or.inr ⟨a, e.happening, led, about, ?_⟩
    rw [Store.story, longer, List.map_append, Store.story]
    rfl

theorem grounded (acts : Acts faulty c s st x st' s') (known : st.Knows c s)
    (grounded : ∀ id, Happening.Grounded (s.story id)) (id : AttemptId) :
    Happening.Grounded (s'.story id) := by
  rcases acts.story_eq id with same | ⟨a, h, rfl, rfl, longer⟩
  · rw [same]
    exact grounded id
  · rw [longer]
    exact (grounded a.id).append known.2.2

theorem knows_through {as : List Attempt} (known : ∀ b ∈ as, s.Knows b ∧ b.first = c.user) :
    (Stance.through as).Knows c s := by
  cases as with
  | nil => trivial
  | cons a rest => exact known

theorem knows_tell_match {a : Attempt} (found : s.IsMatch a) (sides : List Role) :
    (Stance.tell a .matched sides).Knows c s := by
  cases sides with
  | nil => trivial
  | cons side rest => exact found

theorem knows_afterLooking {a : Attempt} {rest : List Attempt}
    (known : ∀ b ∈ a :: rest, s.Knows b ∧ b.first = c.user) (last : Option Happening) :
    (Stance.afterLooking a rest last).Knows c s := by
  obtain ⟨here, first⟩ := known a List.mem_cons_self
  have others : (Stance.through rest).Knows c s :=
    knows_through fun b mem => known b (List.mem_cons_of_mem a mem)
  rcases last with _ | last
  · exact ⟨here, Call.mayWrite_showing first (Or.inl rfl), trivial⟩
  · cases last
    case created => exact ⟨here, Call.mayWrite_showing first (Or.inr (Or.inl rfl)), trivial⟩
    case shownToFirst => trivial
    all_goals exact others

theorem knows_afterWriting {a : Attempt} {h : Happening} (known : (Stance.writing a h).Knows c s)
    (grows : s.Grows s') (written : s'.story a.id = s.story a.id ++ [h]) :
    (Stance.afterWriting a h).Knows c s' := by
  obtain ⟨here, may, grounds⟩ := known
  have stays : s'.Knows a := grows.knows here
  have mem : h ∈ s'.story a.id := by simp [written]
  have kept : h.Grounds (s'.story a.id) := grounds.mono (grows.story a.id)
  cases h with
  | created => exact ⟨stays, Call.mayWrite_showing (may.side rfl) (Or.inr (Or.inl rfl)), trivial⟩
  | shownToFirst => trivial
  | shownToSecond => trivial
  | firstLiked => exact ⟨stays, by simp, mem⟩
  | firstDisliked => exact ⟨stays, Call.mayWrite_closing rfl (may.isSwipe rfl), Or.inl mem⟩
  | secondDisliked => exact ⟨stays, Call.mayWrite_closing rfl (may.isSwipe rfl), Or.inr mem⟩
  | secondLiked =>
    refine ⟨stays, Call.mayWrite_closing rfl (may.isSwipe rfl), ?_⟩
    rw [written]
    exact List.Sublist.append (List.singleton_sublist.2 grounds) (List.Sublist.refl [_])
  | paired => exact ⟨stays, .paired, rfl, kept⟩
  | failed => exact ⟨stays, .failed, rfl, kept⟩

theorem knows (acts : Acts faulty c s st x st' s') (register : s.IsRegister)
    (grounded : ∀ id, Happening.Grounded (s.story id)) (known : st.Knows c s) :
    st'.Knows c s' := by
  have grows := acts.grows register
  cases acts with
  | looks idle quiet => exact known
  | quits cause quiet => trivial
  | finds made mem pending role quiet =>
    subst made
    exact ⟨Store.knows_of_mem mem, role, _, _, rfl⟩
  | lists all quiet =>
    exact knows_through fun b mem => ⟨Store.knows_of_mem (all b mem).1, (all b mem).2.1⟩
  | @courts a _ liker quiet =>
    refine ⟨Store.knows_of_mem liker.mem, liker.second, ?_⟩
    apply (grounded a.id).firstLiked_mem
    rw [← Store.lastHappening?_eq]
    exact Store.awaiting_of_awaitsReply liker.waits
  | opens clock first second pending free fresh quiet =>
    refine ⟨Store.knows_of_mem ?_, Call.mayWrite_showing first (Or.inl rfl), trivial⟩
    simp
  | @answers a side verdict _ turn quiet =>
    obtain ⟨here, role, given⟩ := known
    refine ⟨here, Call.mayWrite_swipe role given, ?_⟩
    cases side with
    | first => cases verdict <;> trivial
    | second =>
      rw [Store.stage, Store.lastHappening?_eq] at turn
      have liked := (grounded a.id).firstLiked_mem turn
      cases verdict <;> exact liked
  | resumes quiet => exact knows_afterLooking known _
  | shows liked quiet =>
    obtain ⟨here, second, before⟩ := known
    exact ⟨here, Call.mayWrite_showing second (Or.inr (Or.inr rfl)), before⟩
  | @writes a e clock about fresh =>
    apply knows_afterWriting known grows
    rw [← about, Store.story_withEvent_self]
  | @moves a b state mem same pending =>
    cases state with
    | matched =>
      obtain ⟨⟨b', mem', id, first, second⟩, _⟩ := known
      refine ⟨{ b' with state := .matched }, ?_, id, first, second, rfl⟩
      refine Store.mem_attempts_setState.2 ⟨b', mem', ?_⟩
      rw [if_pos id]
    | pending => trivial
    | mismatched => trivial
  | late absent quiet => trivial
  | chats first second => exact knows_tell_match (grows.isMatch known) _
  | @tells a side rest d _ receiver quiet =>
    cases kind : d.kind <;> rw [kind] at known
    · cases rest with
      | nil => trivial
      | cons r rest =>
        exact ⟨grows.knows known.1, fun q mem => known.2.1 q (List.mem_cons_of_mem side mem),
          known.2.2⟩
    · exact knows_tell_match (grows.isMatch known) rest
  | @misses a kind side rest _ fault quiet =>
    cases kind
    · cases rest with
      | nil => trivial
      | cons r rest =>
        exact ⟨known.1, fun q mem => known.2.1 q (List.mem_cons_of_mem side mem), known.2.2⟩
    · exact knows_tell_match known rest

theorem held (acts : Acts faulty c s st x st' s') (known : st.Knows c s) {b : Attempt}
    (holds : st'.held? = some b) :
    st.held? = some b ∨ (∀ d ∈ s.attempts, d.id ≠ b.id) ∨
      (s.Knows b ∧ ∃ side, (s.stage b.id).awaiting = some side ∧ b.person side = c.user) := by
  cases acts with
  | looks idle => exact Or.inl holds
  | @lists as => cases as <;> cases holds
  | opens clock first second pending free fresh =>
    cases holds
    exact Or.inr (Or.inl fresh)
  | @answers a side verdict _ turn =>
    cases holds
    exact Or.inr (Or.inr ⟨known.1, side, turn, Role.person_of known.2.1⟩)
  | @resumes a rest =>
    obtain ⟨here, own⟩ := known a List.mem_cons_self
    have waits := s.awaiting_of_awaitingFirst a.id
    generalize s.lastHappening? a.id = last at holds waits
    rcases last with _ | last
    · cases holds
      exact Or.inr (Or.inr ⟨here, .first, waits rfl, own⟩)
    · cases last
      case created =>
        cases holds
        exact Or.inr (Or.inr ⟨here, .first, waits rfl, own⟩)
      all_goals cases rest <;> cases holds
  | @shows a _ liked =>
    cases holds
    have waits := Store.awaiting_of_firstLiked liked
    exact Or.inr (Or.inr ⟨known.1, .second, waits, known.2.1⟩)
  | @writes a e =>
    rw [Stance.eq_of_held_afterWriting holds]
    exact Or.inl rfl
  | @moves a d state => cases state <;> cases holds
  | @tells a side rest => cases rest <;> cases holds
  | @misses a kind side rest => cases rest <;> cases holds
  | _ => cases holds

end Acts

theorem Call.MayWrite.congr {c : Call} {a b : Attempt} {h : Happening} (may : c.MayWrite a h)
    (first : b.first = a.first) (second : b.second = a.second) : c.MayWrite b h where
  side open_ := by
    rw [← may.side open_]
    cases h.side
    · exact first
    · exact second
  answer := may.answer
  closing := may.closing

namespace Traffic

structure Signed (t : Traffic) (e : Event) (i : CallId) (c : Call) (a : Attempt) : Prop where
  made : t.Made i c
  wrote : t.Wrote i e
  mem : a ∈ t.store.attempts
  about : a.id = e.attempt
  may : c.MayWrite a e.happening

theorem Signed.proceed {t : Traffic} {e : Event} {j : CallId} {d : Call} {a : Attempt} {s : Store}
    (signed : t.Signed e j d a) (grows : t.store.Grows s) (i : CallId) (x : Exchange)
    (p : Program Call.Result) : ∃ b, (t.proceed i x p s).Signed e j d b := by
  obtain ⟨b, mem, id, first, second, _⟩ := grows.attempts a signed.mem
  exact ⟨b, signed.made.proceed i x p s, signed.wrote.proceed i x p s, mem,
    id.trans signed.about, signed.may.congr first second⟩

/-- What holds of all traffic, however calls overlap, fail or stop. -/
structure Sound (t : Traffic) : Prop where
  abides : t.Abides
  register : t.store.IsRegister
  known : ∀ {i c st}, t.Runs i c st → st.Knows c t.store
  grounded : ∀ id, Happening.Grounded (t.store.story id)
  settled : ∀ a ∈ t.store.attempts, ∀ h, Happening.closing a.state = some h →
    h.Grounds (t.store.story a.id)
  signed : ∀ e ∈ t.store.log, ∃ i c a, t.Signed e i c a
  announced : ∀ d ∈ t.store.deliveries, d.kind = .liked → t.store.IsAnnounced d.receiver
  opened : ∀ {i u v chat}, (i, ⟨.createChat u v, .ok chat⟩) ∈ t.history → chat ∈ t.store.chats

namespace Sound

variable {ruler : Geo.Ruler} {rules : Rules} {t t' : Traffic}

theorem opening {s : Store} (fresh : s.IsFresh) : (opening s).Sound where
  abides := abides_opening s
  register := by
    refine ⟨?_, ?_, ?_⟩ <;> intro a mem <;> simp [Traffic.opening, fresh.attempts] at mem
  known runs := absurd runs (not_runs_of_isQuiet rfl)
  grounded id := by
    have silent : s.story id = [] := by simp [Store.story, Store.eventsOf, fresh.log]
    simp only [Traffic.opening, silent]
    exact Happening.grounded_nil
  settled a mem := by simp [Traffic.opening, fresh.attempts] at mem
  signed e mem := by simp [Traffic.opening, fresh.log] at mem
  announced d mem := by simp [Traffic.opening, fresh.deliveries] at mem
  opened mem := by simp [Traffic.opening] at mem

theorem exists_of_logged (sound : t.Sound) (e : Event) (logged : e ∈ t.store.log) :
    ∃ a ∈ t.store.attempts, a.id = e.attempt := by
  obtain ⟨_, _, a, signed⟩ := sound.signed e logged
  exact ⟨a, signed.mem, signed.about⟩

theorem launch (sound : t.Sound) (c : Call) : (t.launch ruler c).Sound where
  abides := sound.abides.launch c
  register := sound.register
  known runs := by
    rcases sound.abides.runs_launch runs with runs | ⟨_, _, rfl⟩
    · exact sound.known runs
    · trivial
  grounded := sound.grounded
  settled := sound.settled
  signed e mem := by
    obtain ⟨i, c, a, signed⟩ := sound.signed e mem
    exact ⟨i, c, a, signed.made.launch ruler _, signed.wrote, signed.mem, signed.about, signed.may⟩
  announced := sound.announced
  opened := sound.opened

theorem drop (sound : t.Sound) (i : CallId) : (t.drop i).Sound where
  abides := sound.abides.drop i
  register := sound.register
  known runs := sound.known (runs_drop runs).2
  grounded := sound.grounded
  settled := sound.settled
  signed e mem := by
    obtain ⟨j, c, a, signed⟩ := sound.signed e mem
    exact ⟨j, c, a, signed.made.drop i, signed.wrote, signed.mem, signed.about, signed.may⟩
  announced := sound.announced
  opened := sound.opened

section Turning

variable {faulty : Prop} {i : CallId} {c : Call} {st st' : Stance} {x : Exchange} {s : Store}
  {p : Program Call.Result}

theorem grows (sound : t.Sound) (turn : t.Turn faulty i c st x st' s p) : t.store.Grows s :=
  turn.acts.grows sound.register

theorem known_proceed (sound : t.Sound) (turn : t.Turn faulty i c st x st' s p) {j : CallId}
    {d : Call} {sd : Stance} (runs : (t.proceed i x p s).Runs j d sd) : sd.Knows d s := by
  rcases turn.before runs with ⟨_, rfl, rfl⟩ | ⟨_, runs⟩
  · exact turn.acts.knows sound.register sound.grounded (sound.known turn.runs)
  · exact (sound.known runs).mono (sound.grows turn)

theorem settled_proceed (sound : t.Sound) (turn : t.Turn faulty i c st x st' s p) (b : Attempt)
    (mem : b ∈ s.attempts) (h : Happening) (closes : Happening.closing b.state = some h) :
    h.Grounds (s.story b.id) := by
  have grows := sound.grows turn
  have kept (a : Attempt) (stored : a ∈ t.store.attempts)
      (closes : Happening.closing a.state = some h) : h.Grounds (s.story a.id) :=
    (sound.settled a stored h closes).mono (grows.story a.id)
  have known := sound.known turn.runs
  cases turn.acts with
  | opens clock first second pending =>
    rcases List.mem_append.1 mem with mem | mem
    · exact kept b mem closes
    · rw [List.mem_singleton.1 mem] at closes
      rw [Attempt.isPending, beq_iff_eq] at pending
      simp [pending, Happening.closing] at closes
  | @moves a b' state stored same pending =>
    obtain ⟨old, oldMem, rfl⟩ := Store.mem_attempts_setState.1 mem
    by_cases here : old.id = a.id
    · simp only [here, if_true] at closes ⊢
      obtain ⟨_, k, closes', grounds⟩ := known
      rw [closes] at closes'
      rw [Option.some.inj closes']
      exact grounds
    · simp only [here, if_false] at closes ⊢
      exact kept old oldMem closes
  | _ => exact kept b mem closes

theorem signed_proceed (sound : t.Sound) (turn : t.Turn faulty i c st x st' s p) (e : Event)
    (mem : e ∈ s.log) : ∃ j d a, (t.proceed i x p s).Signed e j d a := by
  have kept (stored : e ∈ t.store.log) : ∃ j d a, (t.proceed i x p s).Signed e j d a := by
    obtain ⟨j, d, a, signed⟩ := sound.signed e stored
    obtain ⟨b, signed⟩ := signed.proceed (sound.grows turn) i x p
    exact ⟨j, d, b, signed⟩
  have known := sound.known turn.runs
  have made := turn.runs.made
  cases turn.acts with
  | @writes a e' clock about fresh =>
    rcases List.mem_append.1 mem with mem | mem
    · exact kept mem
    · rw [List.mem_singleton.1 mem]
      obtain ⟨⟨b, stored, id, first, second⟩, may, _⟩ := known
      exact ⟨i, c, b, made.proceed i _ p _, wrote_proceed_self about p _, stored,
        id.trans about.symm, may.congr first second⟩
  | _ => exact kept mem

theorem announced_proceed (sound : t.Sound) (turn : t.Turn faulty i c st x st' s p) (d : Delivery)
    (mem : d ∈ s.deliveries) (kind : d.kind = .liked) : s.IsAnnounced d.receiver := by
  have grows := sound.grows turn
  have kept (stored : d ∈ t.store.deliveries) : s.IsAnnounced d.receiver :=
    grows.isAnnounced (sound.announced d stored kind)
  have known := sound.known turn.runs
  cases turn.acts with
  | @tells a side rest d' _ receiver quiet =>
    rcases List.mem_append.1 mem with mem | mem
    · exact kept mem
    · have same := List.mem_singleton.1 mem
      rw [same] at kind
      rw [kind] at known
      obtain ⟨⟨b, stored, id, _, second⟩, sides, liked⟩ := known
      rw [sides side List.mem_cons_self] at receiver
      refine ⟨b, stored, second.trans ?_, ?_⟩
      · rw [same]
        exact receiver.symm
      · rw [id]
        exact liked
  | _ => exact kept mem

theorem proceed (sound : t.Sound) (turn : t.Turn faulty i c st x st' s p)
    (abides : (t.proceed i x p s).Abides) : (t.proceed i x p s).Sound where
  abides := abides
  register := by
    obtain ⟨_, _, found⟩ := turn.runs.aloft
    exact turn.acts.isRegister sound.register (sound.abides.somebody found rfl)
  known := sound.known_proceed turn
  grounded := turn.acts.grounded (sound.known turn.runs) sound.grounded
  settled := sound.settled_proceed turn
  signed := sound.signed_proceed turn
  announced := sound.announced_proceed turn
  opened mem := by
    rcases mem_history_proceed.1 mem with mem | now
    · exact (sound.grows turn).chats.subset (sound.opened mem)
    · exact turn.acts.mem_chats (Prod.mk.inj now).2.symm

end Turning

theorem step (sound : t.Sound) (step : Step ruler rules t t') : t'.Sound := by
  have abides := sound.abides.step step
  cases sound.abides.shift step with
  | starts c _ => exact sound.launch c
  | turns turn => exact sound.proceed turn abides
  | drops i _ => exact sound.drop i

theorem reaches (sound : t.Sound) (reaches : Reaches ruler rules t t') : t'.Sound := by
  induction reaches with
  | refl => exact sound
  | tail _ step ih => exact ih.step step

theorem keeps {P : Traffic → Prop} (sound : t.Sound) (reaches : Reaches ruler rules t t')
    (start : P t) (keep : ∀ {t t'}, t.Sound → P t → Step ruler rules t t' → P t') : P t' := by
  induction reaches with
  | refl => exact start
  | tail before step ih => exact keep (sound.reaches before) ih step

end Sound

/-- Traffic over a store that starts without attempts is sound. -/
theorem Reaches.sound {ruler : Geo.Ruler} {rules : Rules} {s : Store} {t : Traffic}
    (reaches : Reaches ruler rules (opening s) t) (fresh : s.IsFresh) : t.Sound :=
  (Sound.opening fresh).reaches reaches

end Traffic
end Matchmaking
