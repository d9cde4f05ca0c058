import Matchmaking.Proofs.Outcome.Answering
/-! The second person answers several times at once, perhaps not always in the same way. Any of the
calls may write its verdict and a closing event, but the move of the attempt is guarded: the first
call to make it wins, and all others are refused, at `pendingOfPair`, at the turn check, or at the
move. -/
namespace Matchmaking

inductive Course.Contends (a : Attempt) (verdict : Verdict) : Course → Prop
  | asking : Contends a verdict (.asking verdict)
  | judging : Contends a verdict (.judging a .second verdict)
  | answering : Contends a verdict (.answering a .second verdict)
  | closing : Contends a verdict (.closing a verdict)
  | moving : Contends a verdict (.moving a verdict)
  | refused : Contends a verdict .refused

def Course.isClosing : Course → Bool
  | closing _ _ | moving _ _ => true
  | _ => false

namespace Store

variable {link : String → String} {s s' : Store} {a b : Attempt} {side : Role}
  {user candidate : UserId}

theorem isPending_move {verdict : Verdict} (mem : b ∈ (s.setState a.id verdict.outcome).attempts)
    (pending : b.isPending) : b ∈ s.attempts ∧ b.id ≠ a.id := by
  obtain ⟨b, stored, rfl⟩ := mem_attempts_setState.1 mem
  by_cases here : b.id = a.id
  · rw [if_pos here] at pending
    cases verdict <;> cases pending
  · rw [if_neg here]
    exact ⟨stored, here⟩

/-- What a verdict that closes the attempt has brought so far, and what its call still owes. -/
inductive Spoils (link : String → String) (s : Store) (a : Attempt) (s' : Store) :
    Verdict → Course → Prop
  | nothing (chats : s'.chats = s.chats) (deliveries : s'.deliveries = s.deliveries) :
      Spoils link s a s' .dislike .accepted
  | match_ (chats : s'.chats = s.chats) (deliveries : s'.deliveries = s.deliveries) :
      Spoils link s a s' .like (.matching a)
  | chat (number : Nat) (told owed : List Role) (all : told ++ owed = [.second, .first])
      (chats : s'.chats = s.chats ++ [⟨number, a.first, a.second⟩])
      (liked : s'.notices .liked = s.notices .liked)
      (matched : s'.notices .matched = s.notices .matched ++ told.map (s.noticeTo link a)) :
      Spoils link s a s' .like (.tell a .matched owed)

/-- A call that owes nothing more has brought one chat and two notifications, or nothing. -/
theorem Spoils.complete {verdict : Verdict} {place : Course}
    (spoils : s.Spoils link a s' verdict place) (ended : place = .accepted) :
    (∃ opened, s'.chats = s.chats ++ opened ∧
      opened.map Chat.people = if verdict = .like then [(a.first, a.second)] else []) ∧
    s'.notices .liked = s.notices .liked ∧
    s'.notices .matched = s.notices .matched ++ if verdict = .like then
      [(a.second, s.noticeOf link a.first), (a.first, s.noticeOf link a.second)] else [] := by
  cases spoils with
  | nothing chats deliveries =>
    have notices (kind : NoticeKind) : s'.notices kind = s.notices kind := by
      rw [Store.notices, deliveries, Store.notices]
    refine ⟨⟨[], ?_, rfl⟩, notices .liked, ?_⟩
    · rw [chats, List.append_nil]
    · rw [notices]
      exact (List.append_nil _).symm
  | match_ => cases ended
  | chat number told owed all chats liked matched =>
    cases owed with
    | cons => cases ended
    | nil =>
      rw [List.append_nil] at all
      subst all
      exact ⟨⟨_, chats, rfl⟩, liked, matched⟩

end Store

namespace Traffic

variable {link : String → String} {ruler : Geo.Ruler} {s s' : Store} {a : Attempt}
  {verdicts : List Verdict} {verdict : Verdict} {t t' : Traffic} {places places' : CallId → Course}
  {winner : Option CallId} {i j : CallId} {c : Call} {x : Exchange} {p : Program Call.Result}
  {pos : Course}

/-- All calls are answers of the second person, and none but the winner has won. -/
def Contending (a : Attempt) (winner : Option CallId) (t : Traffic) (places : CallId → Course) :
    Prop :=
  ∀ i c, t.Made i c → winner ≠ some i →
    ∃ principal verdict, c = .swipe principal a.first verdict ∧ (places i).Contends a verdict

theorem Contending.launch (contending : t.Contending a winner places) (principal : Principal)
    (verdict : Verdict) :
    (t.launch ruler (.swipe principal a.first verdict)).Contending a winner
      (Function.update places t.flights.length (.asking verdict)) := by
  intro i c made other
  rcases made_launch made with made | ⟨rfl, rfl⟩
  · rw [Function.update_of_ne (Nat.ne_of_lt made.lt)]
    exact contending i c made other
  · rw [Function.update_self]
    exact ⟨principal, verdict, rfl, .asking⟩

/-- One call goes on, to win or to contend further. -/
theorem Contending.proceed (contending : t.Contending a winner places) {winner' : Option CallId}
    (made : t.Made i c) (stays : ∀ j, j ≠ i → winner' ≠ some j → winner ≠ some j)
    (led : winner' ≠ some i →
      ∃ principal verdict, c = .swipe principal a.first verdict ∧ pos.Contends a verdict) :
    (t.proceed i x p s').Contending a winner' (Function.update places i pos) := by
  intro j d after other
  have before := made_of_proceed after
  by_cases here : j = i
  · rw [here] at before other ⊢
    rw [Function.update_self, before.unique made]
    exact led other
  · rw [Function.update_of_ne here]
    exact contending j d before (stays j here other)

/-- No call has won. As soon as one has written a verdict, one is about to win. -/
structure Undecided (s : Store) (a : Attempt) (t : Traffic) (places : CallId → Course) : Prop where
  told : ∃ hs, s.Tells a.id hs t.store
  contending : t.Contending a none places
  closing : (t.store.story a.id = s.story a.id ∧ ∀ i c, t.Made i c → places i ≠ .refused) ∨
    ∃ i c, t.Made i c ∧ (places i).isClosing

/-- A call has won, by moving the attempt. -/
structure Decided (link : String → String) (s : Store) (a : Attempt) (winner : CallId)
    (verdict : Verdict) (t : Traffic) (places : CallId → Course) : Prop where
  made : ∃ principal, t.Made winner (.swipe principal a.first verdict)
  attempts : t.store.attempts = (s.setState a.id verdict.outcome).attempts
  spoils : s.Spoils link a t.store verdict (places winner)
  contending : t.Contending a (some winner) places

namespace Undecided

theorem launch (undecided : t.Undecided s a places) (principal : Principal) (verdict : Verdict) :
    (t.launch ruler (.swipe principal a.first verdict)).Undecided s a
      (Function.update places t.flights.length (.asking verdict)) where
  told := undecided.told
  contending := undecided.contending.launch principal verdict
  closing := by
    rcases undecided.closing with ⟨story, unrefused⟩ | ⟨i, c, made, closing⟩
    · refine Or.inl ⟨story, ?_⟩
      intro i c made
      rcases made_launch made with made | ⟨rfl, _⟩
      · rw [Function.update_of_ne (Nat.ne_of_lt made.lt)]
        exact unrefused i c made
      · rw [Function.update_self]
        exact Course.noConfusion
    · refine Or.inr ⟨i, c, made.launch ruler _, ?_⟩
      rwa [Function.update_of_ne (Nat.ne_of_lt made.lt)]

theorem read (undecided : t.Undecided s a places) {principal : Principal}
    (made : t.Made i (.swipe principal a.first verdict)) (contends : pos.Contends a verdict)
    (open_ : (places i).isClosing = false)
    (turned : pos = .refused → t.store.story a.id ≠ s.story a.id) :
    (t.proceed i x p t.store).Undecided s a (Function.update places i pos) where
  told := undecided.told
  contending := undecided.contending.proceed made (fun _ _ _ => Option.some_ne_none _ ∘ Eq.symm)
    fun _ => ⟨principal, verdict, rfl, contends⟩
  closing := by
    rcases undecided.closing with ⟨story, unrefused⟩ | ⟨j, c, made', closing⟩
    · refine Or.inl ⟨story, ?_⟩
      intro j c made'
      by_cases here : j = i
      · rw [here, Function.update_self]
        exact fun refused => turned refused story
      · rw [Function.update_of_ne here]
        exact unrefused j c (made_of_proceed made')
    · refine Or.inr ⟨j, c, made'.proceed i x p _, ?_⟩
      have other : j ≠ i := by
        rintro rfl
        rw [open_] at closing
        cases closing
      rwa [Function.update_of_ne other]

theorem write (undecided : t.Undecided s a places) {principal : Principal} {h : Happening}
    (made : t.Made i (.swipe principal a.first verdict)) (contends : pos.Contends a verdict)
    (closes : pos.isClosing) (tells : t.store.Tells a.id [h] s') :
    (t.proceed i x p s').Undecided s a (Function.update places i pos) where
  told := by
    obtain ⟨hs, told⟩ := undecided.told
    exact ⟨_, told.trans tells⟩
  contending := undecided.contending.proceed made (fun _ _ _ => Option.some_ne_none _ ∘ Eq.symm)
    fun _ => ⟨principal, verdict, rfl, contends⟩
  closing := by
    refine Or.inr ⟨i, _, made.proceed i x p _, ?_⟩
    rwa [Function.update_self]

theorem win (undecided : t.Undecided s a places) {principal : Principal}
    (made : t.Made i (.swipe principal a.first verdict)) :
    (t.proceed i x p (t.store.setState a.id verdict.outcome)).Decided link s a i verdict
      (Function.update places i (.afterMoving a verdict)) where
  made := ⟨principal, made.proceed i x p _⟩
  attempts := by
    obtain ⟨hs, told⟩ := undecided.told
    rw [Traffic.proceed, Store.setState, told.attempts, Store.setState]
  spoils := by
    obtain ⟨hs, told⟩ := undecided.told
    rw [Function.update_self]
    cases verdict
    · exact .match_ told.chats told.deliveries
    · exact .nothing told.chats told.deliveries
  contending := undecided.contending.proceed made (fun _ _ _ => Option.some_ne_none _ ∘ Eq.symm)
    fun other => absurd rfl other

/-- Every step of an undecided contest leaves it undecided, or decides it. -/
theorem stride (undecided : t.Undecided s a places) (exclusive : s.IsExclusive)
    (waits : s.Awaits a .second a.second a.first)
    (strides : Strides link ruler s a.second a.first verdicts t places t' places') :
    t'.Undecided s a places' ∨ ∃ winner verdict, t'.Decided link s a winner verdict places' := by
  cases strides with
  | starts given => exact Or.inl (undecided.launch _ _)
  | @goes i c x pos s' p made leads =>
    obtain ⟨hs, told⟩ := undecided.told
    have attempts := told.attempts
    have open_ : t.store.IsOpen a.id := ⟨a, by rw [attempts]; exact waits.mem, rfl, waits.pending⟩
    obtain ⟨principal, verdict, rfl, contends⟩ :=
      undecided.contending i c made (Option.some_ne_none i).symm
    generalize here : places i = place at leads contends
    generalize x.request = r at leads
    cases contends with
    | asking =>
      cases leads with
      | @finds b side _ mem joins pending role =>
        rw [attempts] at mem
        obtain rfl := waits.eq_of_joins exclusive mem joins pending
        rw [waits.role] at role
        obtain rfl := Option.some.inj role
        exact Or.inl (undecided.read made .judging (by rw [here]; rfl) (by simp))
      | misses absent =>
        rw [attempts] at absent
        exact absurd waits.pending (absent a waits.mem waits.joins)
    | judging =>
      cases leads with
      | waited turn =>
        exact Or.inl (undecided.read made .answering (by rw [here]; rfl) (by simp))
      | unawaited turn =>
        refine Or.inl (undecided.read made .refused (by rw [here]; rfl) ?_)
        intro _ untold
        apply turn
        rw [Store.stage, Store.lastHappening?_eq, untold, ← Store.lastHappening?_eq]
        exact waits.turn
    | answering =>
      cases leads with
      | answers tells =>
        rw [Course.afterAnswering_second]
        exact Or.inl (undecided.write made .closing rfl tells)
    | closing =>
      cases leads with
      | closes tells => exact Or.inl (undecided.write made .moving rfl tells)
    | moving =>
      cases leads with
      | moves => exact Or.inr ⟨i, verdict, undecided.win made⟩
      | loses closed => exact absurd open_ closed
    | refused => cases leads

end Undecided

namespace Decided

variable {w : CallId}

theorem pass (decided : t.Decided link s a w verdict places) (other : i ≠ w) (made : t.Made i c)
    (led : ∃ principal verdict, c = .swipe principal a.first verdict ∧ pos.Contends a verdict)
    (attempts : s'.attempts = t.store.attempts) (chats : s'.chats = t.store.chats)
    (deliveries : s'.deliveries = t.store.deliveries) :
    (t.proceed i x p s').Decided link s a w verdict (Function.update places i pos) where
  made := by
    obtain ⟨principal, crowned⟩ := decided.made
    exact ⟨principal, crowned.proceed i x p s'⟩
  attempts := attempts.trans decided.attempts
  spoils := by
    have notices (kind : NoticeKind) : s'.notices kind = t.store.notices kind := by
      rw [Store.notices, deliveries, Store.notices]
    rw [Function.update_of_ne (Ne.symm other)]
    have spoils := decided.spoils
    generalize places w = place at spoils
    cases spoils with
    | nothing chats' deliveries' =>
      exact .nothing (chats.trans chats') (deliveries.trans deliveries')
    | match_ chats' deliveries' => exact .match_ (chats.trans chats') (deliveries.trans deliveries')
    | chat number told owed all chats' liked matched =>
      exact .chat number told owed all (chats.trans chats') ((notices .liked).trans liked)
        ((notices .matched).trans matched)
  contending := decided.contending.proceed made (fun _ _ unequal => unequal) fun _ => led

theorem advance (decided : t.Decided link s a w verdict places)
    (leads : Course.Leads link s a.second a.first t.store (places w) x.request pos s') :
    (t.proceed w x p s').Decided link s a w verdict (Function.update places w pos) := by
  obtain ⟨principal, made⟩ := decided.made
  have rest (attempts : s'.attempts = t.store.attempts) (spoils : s.Spoils link a s' verdict pos) :
      (t.proceed w x p s').Decided link s a w verdict (Function.update places w pos) := by
    refine ⟨⟨principal, made.proceed w x p s'⟩, attempts.trans decided.attempts, ?_,
      decided.contending.proceed made (fun _ _ unequal => unequal) fun other => absurd rfl other⟩
    rw [Function.update_self]
    exact spoils
  have spoils := decided.spoils
  generalize places w = place at spoils leads
  generalize x.request = r at leads
  cases spoils with
  | nothing => cases leads
  | match_ chats deliveries =>
    cases leads with
    | chats number =>
      have notices (kind : NoticeKind) : t.store.notices kind = s.notices kind := by
        rw [Store.notices, deliveries, Store.notices]
      refine rest rfl (.chat number [] _ rfl ?_ (notices .liked) ?_)
      · rw [Store.chats_withChat, chats]
      · rw [List.map_nil, List.append_nil]
        exact notices .matched
  | chat number told owed all chats liked matched =>
    cases owed with
    | nil => cases leads
    | cons side owed =>
      cases leads with
      | looks => exact rest rfl (.chat number told _ all chats liked matched)
      | tells _ delivered =>
        refine rest rfl (.chat number (told ++ [side]) owed ?_ chats ?_ ?_)
        · rw [List.append_assoc]
          exact all
        · rw [Store.notices_recordDelivery, liked]
          exact List.append_nil _
        · rw [Store.notices_recordDelivery, matched, List.map_append, List.append_assoc]
          rfl

/-- A decided contest stays decided. -/
theorem stride (decided : t.Decided link s a w verdict places) (exclusive : s.IsExclusive)
    (waits : s.Awaits a .second a.second a.first)
    (strides : Strides link ruler s a.second a.first verdicts t places t' places') :
    t'.Decided link s a w verdict places' := by
  cases strides with
  | @starts principal _ given =>
    obtain ⟨_, made⟩ := decided.made
    refine ⟨⟨_, made.launch ruler _⟩, decided.attempts, ?_, decided.contending.launch _ _⟩
    rw [Function.update_of_ne (Nat.ne_of_lt made.lt)]
    exact decided.spoils
  | @goes i c x pos s' p made leads =>
    by_cases here : i = w
    · subst here
      exact decided.advance leads
    obtain ⟨principal, own, rfl, contends⟩ :=
      decided.contending i c made (fun same => here (Option.some.inj same).symm)
    have led {pos : Course} (contends : pos.Contends a own) : ∃ principal' verdict,
        Call.swipe principal a.first own = .swipe principal' a.first verdict ∧
          pos.Contends a verdict := ⟨principal, own, rfl, contends⟩
    have closed : ¬t.store.IsOpen a.id := by
      rintro ⟨b, mem, same, pending⟩
      rw [decided.attempts] at mem
      exact (Store.isPending_move mem pending).2 same
    generalize places i = place at leads contends
    generalize x.request = r at leads
    cases contends with
    | asking =>
      cases leads with
      | finds mem joins pending role =>
        rw [decided.attempts] at mem
        obtain ⟨stored, other⟩ := Store.isPending_move mem pending
        rw [waits.eq_of_joins exclusive stored joins pending] at other
        exact absurd rfl other
      | misses absent => exact decided.pass here made (led .refused) rfl rfl rfl
    | judging =>
      cases leads with
      | waited turn => exact decided.pass here made (led .answering) rfl rfl rfl
      | unawaited turn => exact decided.pass here made (led .refused) rfl rfl rfl
    | answering =>
      cases leads with
      | answers tells =>
        rw [Course.afterAnswering_second]
        exact decided.pass here made (led .closing) tells.attempts tells.chats tells.deliveries
    | closing =>
      cases leads with
      | closes tells =>
        exact decided.pass here made (led .moving) tells.attempts tells.chats tells.deliveries
    | moving =>
      cases leads with
      | moves open_ => exact absurd open_ closed
      | loses => exact decided.pass here made (led .refused) rfl rfl rfl
    | refused => cases leads

end Decided

/-- One call has won, and has closed the attempt as its verdict demands; all others ended in
`noPendingAttempt`. -/
structure IsWon (link : String → String) (s : Store) (a : Attempt) (t : Traffic) (winner : CallId)
    (verdict : Verdict) : Prop where
  accepted : ∃ principal,
    t.flights[winner]? = some ⟨.swipe principal a.first verdict, .done .recorded⟩
  refused : ∀ i f, i ≠ winner → t.flights[i]? = some f →
    f.rest = .fail (.noPendingAttempt a.second a.first)
  attempts : t.store.attempts = (s.setState a.id verdict.outcome).attempts
  chats : ∃ opened, t.store.chats = s.chats ++ opened ∧
    opened.map Chat.people = if verdict = .like then [(a.first, a.second)] else []
  liked : t.store.notices .liked = s.notices .liked
  matched : t.store.notices .matched = s.notices .matched ++ if verdict = .like then
    [(a.second, s.noticeOf link a.first), (a.first, s.noticeOf link a.second)] else []

theorem Undecided.not_isQuiet (undecided : t.Undecided s a places)
    (stands : t.Stands link s a.second a.first places) (called : t.flights ≠ []) : ¬t.isQuiet := by
  intro quiet
  have refused {i : CallId} {c : Call} (made : t.Made i c) : places i = .refused := by
    obtain ⟨_, verdict, rfl, contends⟩ := undecided.contending i c made (Option.some_ne_none i).symm
    obtain ⟨p, found⟩ := made
    rcases stands.ended quiet found with ⟨accepted, _⟩ | ⟨refused, _⟩
    · rw [accepted] at contends
      cases contends
    · exact refused
  rcases undecided.closing with ⟨_, unrefused⟩ | ⟨i, c, made, closing⟩
  · obtain ⟨f, rest, flights⟩ := List.exists_cons_of_ne_nil called
    have made : t.Made 0 f.call := ⟨f.rest, by rw [flights]; rfl⟩
    exact unrefused 0 _ made (refused made)
  · rw [refused made] at closing
    cases closing

theorem Decided.isWon {w : CallId} (decided : t.Decided link s a w verdict places)
    (stands : t.Stands link s a.second a.first places) (quiet : t.isQuiet) :
    t.IsWon link s a w verdict := by
  obtain ⟨principal, p, found⟩ := decided.made
  have ended : places w = .accepted ∧ p = .done .recorded := by
    rcases stands.ended quiet found with accepted | ⟨refused, _⟩
    · exact accepted
    · have spoils := decided.spoils
      generalize places w = place at spoils refused
      cases spoils with
      | chat number told owed => cases owed <;> cases refused
      | _ => cases refused
  obtain ⟨chats, liked, matched⟩ := decided.spoils.complete ended.1
  refine ⟨⟨principal, ?_⟩, ?_, decided.attempts, chats, liked, matched⟩
  · rw [found, ended.2]
  · intro i f other found
    obtain ⟨_, _, _, contends⟩ := decided.contending i f.call ⟨f.rest, found⟩
      fun same => other (Option.some.inj same).symm
    rcases stands.ended quiet found with ⟨accepted, _⟩ | ⟨_, failed⟩
    · rw [accepted] at contends
      cases contends
    · exact failed

/-- Of any number of overlapping answers of the second person, with any verdicts, one moves the
attempt to the state of its verdict, and all others end in `noPendingAttempt`. -/
theorem contest_has_one_winner {s₀ : Store} {calls : List Call} (fresh : s₀.IsFresh)
    (undergoes : s₀.Undergoes link ruler calls s) (mem : a ∈ s.attempts) (pending : a.isPending)
    (turn : (s.stage a.id).awaiting = some .second)
    (reaches : Reaches ruler (.swipes a.second a.first Verdict.all) (opening s) t)
    (quiet : t.isQuiet) (called : t.flights ≠ []) (linked : t.IsLinked link) :
    ∃ winner verdict, t.IsWon link s a winner verdict := by
  have exclusive := undergoes.isExclusive fresh
  have distinct := (undergoes.inOrder fresh).books.register.distinct a mem
  have waits : s.Awaits a .second a.second a.first :=
    ⟨mem, by simp [Attempt.joins], pending, Role.of_person distinct .second, turn⟩
  have start : (opening s).Undecided s a fun _ => .refused := by
    refine ⟨⟨[], .refl s a.id⟩, ?_, Or.inl ⟨rfl, ?_⟩⟩
    · intro i c made
      simp [Made, opening] at made
    · intro i c made
      simp [Made, opening] at made
  obtain ⟨places, stands, undecided | ⟨winner, verdict, decided⟩⟩ :=
    reaches.keeps_strides (P := fun t places => t.Undecided s a places ∨
      ∃ winner verdict, t.Decided link s a winner verdict places) linked (Or.inl start) (by
        intro t t' places places' held strides
        rcases held with undecided | ⟨winner, verdict, decided⟩
        · exact undecided.stride exclusive waits strides
        · exact Or.inr ⟨winner, verdict, decided.stride exclusive waits strides⟩)
  · exact absurd quiet (undecided.not_isQuiet stands called)
  · exact ⟨winner, verdict, decided.isWon stands quiet⟩

def afterLike : Store :=
  Store.couple.completeAll ("photos/" ++ ·) { photoBase := "photos" } (fun _ _ => some 0)
    [.next 0 ⟨1⟩, .swipe ⟨1⟩ 2 .like]

/-- Ben answers four times. The first call and the second one both write their verdicts, and the
first one makes the move; the third one comes too late with its look at the last event, and the
fourth one with its search. -/
def fourAnswers : Traffic :=
  (Scene.answering 2 1 Verdict.all).perform (opening afterLike) <|
    [.start (.swipe ⟨2⟩ 1 .like), .start (.swipe ⟨2⟩ 1 .dislike), .start (.swipe ⟨2⟩ 1 .like)] ++
      [.turn 0, .turn 1, .turn 2, .turn 0, .turn 1, .turn 0, .turn 1, .turn 2] ++ turns 0 ++
      turns 1 ++ [.start (.swipe ⟨2⟩ 1 .dislike)] ++ turns 3

theorem contest_has_one_winner_of_four :
    fourAnswers.flights.length = 4 ∧
      fourAnswers.store.story 1 = [.created, .shownToFirst, .firstLiked, .secondLiked,
        .secondDisliked,
        .paired, .failed] ∧
      ∃ winner verdict, fourAnswers.IsWon ("photos/" ++ ·) afterLike
        ⟨1, 1, 2, .pending, ⟨1, 0⟩⟩ winner verdict := by
  have numbered : afterLike.IsNumbered :=
    ⟨by decide +kernel, by decide +kernel, by decide +kernel⟩
  refine ⟨by decide +kernel, by decide +kernel, ?_⟩
  exact contest_has_one_winner ⟨rfl, rfl, rfl, rfl⟩
    (Store.Undergoes.none.completeAll Store.isNumbered_couple _ _)
    (by decide +kernel) (by decide +kernel) (by decide +kernel)
    (reaches_answering (by decide) numbered _ _) (by decide +kernel) (by decide +kernel)
    (isLinked_of_all (by decide +kernel))

end Traffic
end Matchmaking
