import Matchmaking.Proofs.Outcome.Answering
/-! The first person likes the second one several times at once. No move guards a first like: every
call that has read the last event before the first of these likes was written goes on to write its
own and to tell the second person; every later one is refused. -/
namespace Matchmaking

namespace Course

/-- Where a first like may stand. -/
inductive Announces (a : Attempt) : Course → Prop
  | asking : Announces a (.asking .like)
  | judging : Announces a (.judging a .first .like)
  | answering : Announces a (.answering a .first .like)
  | telling : Announces a (.telling a .liked .second [])
  | accepted : Announces a .accepted
  | refused : Announces a .refused

def isAdmitted : Course → Bool
  | answering _ _ _ | telling _ _ _ _ | accepted => true
  | _ => false

def hasLiked : Course → Bool
  | telling _ _ _ _ | accepted => true
  | _ => false

def isAccepted : Course → Bool
  | accepted => true
  | _ => false

end Course

theorem Store.Tells.withDeliveries {s s' : Store} {id : AttemptId} {hs : List Happening}
    (tells : s.Tells id hs s') (deliveries : List Delivery) :
    ({ s with deliveries } : Store).Tells id hs { s' with deliveries } where
  log := tells.log
  rest := by rw [tells.rest]

namespace Traffic

variable {link : String → String} {ruler : Geo.Ruler} {s s' : Store} {a : Attempt} {t t' : Traffic}
  {places places' : CallId → Course} {i j : CallId} {c : Call} {x : Exchange}
  {p : Program Call.Result} {pos : Course} {id : AttemptId}

section Records

def Unliked (history : List (CallId × Exchange)) (id : AttemptId) : Prop :=
  ∀ entry ∈ history, entry.2.request ≠ .appendEvent id .firstLiked

/-- The call has read the last event of that attempt before any call has written a like of the
first person. -/
def ReadsEarly (t : Traffic) (i : CallId) (id : AttemptId) : Prop :=
  ∃ before x after, t.history = before ++ (i, x) :: after ∧ x.request = .lastEvent id ∧
    Unliked before id

theorem unliked_append_singleton {history : List (CallId × Exchange)} :
    Unliked (history ++ [(i, x)]) id ↔
      Unliked history id ∧ x.request ≠ .appendEvent id .firstLiked := by
  unfold Unliked
  constructor
  · intro unliked
    exact ⟨fun entry mem => unliked entry (List.mem_append_left _ mem), unliked (i, x) (by simp)⟩
  · rintro ⟨before, now⟩ entry mem
    rcases List.mem_append.1 mem with mem | mem
    · exact before entry mem
    · rw [List.mem_singleton.1 mem]
      exact now

theorem readsEarly_proceed :
    (t.proceed i x p s').ReadsEarly j id ↔
      t.ReadsEarly j id ∨ (j = i ∧ x.request = .lastEvent id ∧ Unliked t.history id) := by
  constructor
  · rintro ⟨before, y, after, split, read, unliked⟩
    rcases split_append_singleton split with ⟨rfl, same, _⟩ | ⟨after', _, history⟩
    · obtain ⟨rfl, rfl⟩ := Prod.mk.inj same
      exact Or.inr ⟨rfl, read, unliked⟩
    · exact Or.inl ⟨before, y, after', history, read, unliked⟩
  · rintro (⟨before, y, after, history, read, unliked⟩ | ⟨rfl, read, unliked⟩)
    · refine ⟨before, y, after ++ [(i, x)], ?_, read, unliked⟩
      rw [Traffic.proceed, history, List.append_assoc, List.cons_append]
    · exact ⟨t.history, x, [], rfl, read, unliked⟩

theorem not_readsEarly (started : ∀ entry ∈ t.history, entry.1 < t.flights.length)
    (late : t.flights.length ≤ i) : ¬t.ReadsEarly i id := by
  rintro ⟨before, y, after, history, _, _⟩
  have lt := started (i, y) (by rw [history]; simp)
  exact Nat.not_lt.2 late lt

end Records

section Lists

variable {kind : Course → Bool} {l : List CallId}

structure Lists (t : Traffic) (places : CallId → Course) (kind : Course → Bool)
    (l : List CallId) : Prop where
  nodup : l.Nodup
  mem_iff : ∀ i, i ∈ l ↔ (∃ c, t.Made i c) ∧ kind (places i)

theorem Lists.launch (lists : t.Lists places kind l) (c : Call) (new : kind pos = false) :
    (t.launch ruler c).Lists (Function.update places t.flights.length pos) kind l where
  nodup := lists.nodup
  mem_iff i := by
    rw [lists.mem_iff]
    constructor
    · rintro ⟨⟨d, made⟩, holds⟩
      refine ⟨⟨d, made.launch ruler c⟩, ?_⟩
      rwa [Function.update_of_ne (Nat.ne_of_lt made.lt)]
    · rintro ⟨⟨d, made⟩, holds⟩
      rcases made_launch made with made | ⟨rfl, _⟩
      · rw [Function.update_of_ne (Nat.ne_of_lt made.lt)] at holds
        exact ⟨⟨d, made⟩, holds⟩
      · rw [Function.update_self, new] at holds
        cases holds

theorem Lists.proceed (lists : t.Lists places kind l) (made : t.Made i c) {l' : List CallId}
    (nodup : l'.Nodup) (others : ∀ j, j ≠ i → (j ∈ l' ↔ j ∈ l)) (own : i ∈ l' ↔ kind pos) :
    (t.proceed i x p s').Lists (Function.update places i pos) kind l' where
  nodup := nodup
  mem_iff j := by
    by_cases here : j = i
    · rw [here, Function.update_self, own]
      exact ⟨fun holds => ⟨⟨c, made.proceed i x p s'⟩, holds⟩, And.right⟩
    · rw [others j here, lists.mem_iff, Function.update_of_ne here]
      constructor
      · rintro ⟨⟨d, made⟩, holds⟩
        exact ⟨⟨d, made.proceed i x p s'⟩, holds⟩
      · rintro ⟨⟨d, made⟩, holds⟩
        exact ⟨⟨d, made_of_proceed made⟩, holds⟩

theorem Lists.keep (lists : t.Lists places kind l) (made : t.Made i c)
    (same : kind pos = kind (places i)) :
    (t.proceed i x p s').Lists (Function.update places i pos) kind l := by
  refine lists.proceed made lists.nodup (fun _ _ => Iff.rfl) ?_
  rw [lists.mem_iff, same]
  exact ⟨And.right, fun holds => ⟨⟨c, made⟩, holds⟩⟩

theorem Lists.add (lists : t.Lists places kind l) (made : t.Made i c)
    (before : kind (places i) = false) (after : kind pos) :
    (t.proceed i x p s').Lists (Function.update places i pos) kind (l ++ [i]) := by
  have absent : i ∉ l := by
    rw [lists.mem_iff, before]
    simp
  refine lists.proceed made ?_ ?_ ?_
  · exact List.nodup_append'.2 ⟨lists.nodup, List.nodup_singleton i, by simpa using absent⟩
  · intro j other
    simp [other]
  · simp [after]

end Lists

/-- What has come of the likes so far: these calls have written theirs, and these have also told the
second person. -/
structure Announcing (link : String → String) (s : Store) (a : Attempt) (likers told : List CallId)
    (t : Traffic) (places : CallId → Course) : Prop where
  calls : ∀ i c, t.Made i c →
    (∃ principal, c = .swipe principal a.second .like) ∧ (places i).Announces a
  started : ∀ entry ∈ t.history, entry.1 < t.flights.length
  liking : t.Lists places Course.hasLiked likers
  telling : t.Lists places Course.isAccepted told
  unliked : Unliked t.history a.id ↔ likers = []
  early : ∀ i c, t.Made i c → (t.ReadsEarly i a.id ↔ (places i).isAdmitted)
  refused : ∀ i c, t.Made i c → places i = .refused → likers ≠ []
  /-- Notifications apart, nothing but likes is written. -/
  store : s.Tells a.id (List.replicate likers.length .firstLiked)
    { t.store with deliveries := s.deliveries }
  liked : t.store.notices .liked =
    s.notices .liked ++ List.replicate told.length (a.second, s.noticeOf link a.first)
  matched : t.store.notices .matched = s.notices .matched

namespace Announcing

variable {likers told : List CallId}

theorem opening (s : Store) : (opening s).Announcing link s a [] [] places where
  calls i c made := by simp [Made, Traffic.opening] at made
  started entry mem := by simp [Traffic.opening] at mem
  liking := ⟨List.nodup_nil, by simp [Made, Traffic.opening]⟩
  telling := ⟨List.nodup_nil, by simp [Made, Traffic.opening]⟩
  unliked := by simp [Unliked, Traffic.opening]
  early i c made := by simp [Made, Traffic.opening] at made
  refused i c made := by simp [Made, Traffic.opening] at made
  store := .refl s a.id
  liked := (List.append_nil _).symm
  matched := rfl

theorem attempts (announcing : t.Announcing link s a likers told places) :
    t.store.attempts = s.attempts := announcing.store.attempts

theorem story (announcing : t.Announcing link s a likers told places) :
    t.store.story a.id = s.story a.id ++ List.replicate likers.length .firstLiked :=
  announcing.store.story

theorem awaiting_iff (announcing : t.Announcing link s a likers told places)
    (turn : (s.stage a.id).awaiting = some .first) :
    (t.store.stage a.id).awaiting = some .first ↔ likers = [] := by
  rw [Store.stage, Store.lastHappening?_eq, announcing.story]
  constructor
  · intro waited
    by_contra written
    obtain ⟨i, rest, rfl⟩ := List.exists_cons_of_ne_nil written
    rw [List.length_cons, List.replicate_succ', ← List.append_assoc,
      List.getLast?_append_of_ne_nil _ (List.cons_ne_nil _ _)] at waited
    cases waited
  · rintro rfl
    rw [List.length_nil, List.replicate_zero, List.append_nil, ← Store.lastHappening?_eq]
    exact turn

theorem launch (announcing : t.Announcing link s a likers told places) (principal : Principal) :
    (t.launch ruler (.swipe principal a.second .like)).Announcing link s a likers told
      (Function.update places t.flights.length (.asking .like)) where
  calls i c made := by
    rcases made_launch made with made | ⟨rfl, rfl⟩
    · rw [Function.update_of_ne (Nat.ne_of_lt made.lt)]
      exact announcing.calls i c made
    · rw [Function.update_self]
      exact ⟨⟨principal, rfl⟩, .asking⟩
  started entry mem := by
    rw [Traffic.launch, List.length_append]
    exact Nat.lt_add_right _ (announcing.started entry mem)
  liking := announcing.liking.launch _ rfl
  telling := announcing.telling.launch _ rfl
  unliked := announcing.unliked
  early i c made := by
    rcases made_launch made with made | ⟨rfl, rfl⟩
    · rw [Function.update_of_ne (Nat.ne_of_lt made.lt)]
      exact announcing.early i c made
    · rw [Function.update_self]
      exact ⟨fun early => (not_readsEarly announcing.started (Nat.le_refl _) early).elim,
        fun admitted => by cases admitted⟩
  refused i c made := by
    rcases made_launch made with made | ⟨rfl, rfl⟩
    · rw [Function.update_of_ne (Nat.ne_of_lt made.lt)]
      exact announcing.refused i c made
    · rw [Function.update_self]
      exact fun refused => Course.noConfusion refused
  store := announcing.store
  liked := announcing.liked
  matched := announcing.matched

/-- What an exchange of one call changes, whatever it does to the store. -/
theorem proceed (announcing : t.Announcing link s a likers told places) (made : t.Made i c)
    (announces : pos.Announces a) {likers' told' : List CallId}
    (liking : (t.proceed i x p s').Lists (Function.update places i pos) Course.hasLiked likers')
    (telling : (t.proceed i x p s').Lists (Function.update places i pos) Course.isAccepted told')
    (more : likers ≠ [] → likers' ≠ [])
    (writes : likers' = [] ↔ likers = [] ∧ x.request ≠ .appendEvent a.id .firstLiked)
    (admits : pos.isAdmitted ↔
      (places i).isAdmitted ∨ (x.request = .lastEvent a.id ∧ likers = []))
    (refuses : pos = .refused → likers' ≠ [])
    (store : s.Tells a.id (List.replicate likers'.length .firstLiked)
      { s' with deliveries := s.deliveries })
    (liked : s'.notices .liked =
      s.notices .liked ++ List.replicate told'.length (a.second, s.noticeOf link a.first))
    (matched : s'.notices .matched = s.notices .matched) :
    (t.proceed i x p s').Announcing link s a likers' told' (Function.update places i pos) where
  calls j d made' := by
    have before := made_of_proceed made'
    by_cases here : j = i
    · rw [here] at before ⊢
      rw [Function.update_self]
      exact ⟨(announcing.calls i d before).1, announces⟩
    · rw [Function.update_of_ne here]
      exact announcing.calls j d before
  started entry mem := by
    rw [Traffic.proceed, List.length_modify]
    rcases mem_history_proceed.1 mem with mem | rfl
    · exact announcing.started entry mem
    · exact made.lt
  liking := liking
  telling := telling
  unliked := by
    rw [Traffic.proceed, unliked_append_singleton, announcing.unliked, writes]
  early j d made' := by
    have before := made_of_proceed made'
    rw [readsEarly_proceed, announcing.early j d before, announcing.unliked]
    by_cases here : j = i
    · rw [here, Function.update_self, admits]
      simp
    · rw [Function.update_of_ne here]
      simp [here]
  refused j d made' := by
    by_cases here : j = i
    · rw [here, Function.update_self]
      exact refuses
    · rw [Function.update_of_ne here]
      exact fun refused => more (announcing.refused j d (made_of_proceed made') refused)
  store := store
  liked := liked
  matched := matched

theorem read (announcing : t.Announcing link s a likers told places) (made : t.Made i c)
    (announces : pos.Announces a) (silent : x.request ≠ .appendEvent a.id .firstLiked)
    (liking : pos.hasLiked = (places i).hasLiked)
    (telling : pos.isAccepted = (places i).isAccepted)
    (admits : pos.isAdmitted ↔
      (places i).isAdmitted ∨ (x.request = .lastEvent a.id ∧ likers = []))
    (refuses : pos = .refused → likers ≠ []) :
    (t.proceed i x p t.store).Announcing link s a likers told (Function.update places i pos) :=
  announcing.proceed made announces (announcing.liking.keep made liking)
    (announcing.telling.keep made telling) id (by simp [silent]) admits refuses announcing.store
    announcing.liked announcing.matched

theorem like (announcing : t.Announcing link s a likers told places) (made : t.Made i c)
    (here : places i = .answering a .first .like)
    (asked : x.request = .appendEvent a.id .firstLiked)
    (tells : t.store.Tells a.id [.firstLiked] s') :
    (t.proceed i x p s').Announcing link s a (likers ++ [i]) told
      (Function.update places i (.telling a .liked .second [])) := by
  have notices (kind : NoticeKind) : s'.notices kind = t.store.notices kind := by
    rw [Store.notices, tells.deliveries, Store.notices]
  refine announcing.proceed made .telling
    (announcing.liking.add made (by rw [here]; rfl) rfl)
    (announcing.telling.keep made (by rw [here]; rfl)) (fun _ => by simp) (by simp [asked]) ?_
    (fun refused => Course.noConfusion refused) ?_ ?_ ?_
  · rw [here]
    exact ⟨fun _ => Or.inl rfl, fun _ => rfl⟩
  · rw [List.length_append, List.length_singleton, List.replicate_succ']
    exact announcing.store.trans (tells.withDeliveries s.deliveries)
  · rw [notices]
    exact announcing.liked
  · rw [notices]
    exact announcing.matched

theorem tell (announcing : t.Announcing link s a likers told places) (made : t.Made i c)
    (here : places i = .telling a .liked .second [])
    (asked : x.request = .notifyLiked a.second (s.noticeOf link a.first)) (delivered : Bool) :
    (t.proceed i x p (t.store.recordDelivery
      ⟨.liked, a.second, s.noticeOf link a.first, delivered⟩)).Announcing link s a likers
        (told ++ [i]) (Function.update places i .accepted) := by
  refine announcing.proceed made .accepted (announcing.liking.keep made (by rw [here]; rfl))
    (announcing.telling.add made (by rw [here]; rfl) rfl) id (by simp [asked]) ?_
    (fun refused => Course.noConfusion refused) announcing.store ?_ ?_
  · rw [here]
    exact ⟨fun _ => Or.inl rfl, fun _ => rfl⟩
  · rw [Store.notices_recordDelivery, announcing.liked, List.length_append, List.length_singleton,
      List.replicate_succ', List.append_assoc]
    rfl
  · rw [Store.notices_recordDelivery, announcing.matched]
    exact List.append_nil _

/-- Every step of the likes is one of these. -/
theorem stride (announcing : t.Announcing link s a likers told places) (exclusive : s.IsExclusive)
    (waits : s.Awaits a .first a.first a.second)
    (strides : Strides link ruler s a.first a.second [.like] t places t' places') :
    ∃ likers told, t'.Announcing link s a likers told places' := by
  cases strides with
  | @starts principal verdict given =>
    obtain rfl := List.mem_singleton.1 given
    exact ⟨likers, told, announcing.launch principal⟩
  | @goes i c x pos s' p made leads =>
    obtain ⟨_, announces⟩ := announcing.calls i c made
    have attempts := announcing.attempts
    have awaiting := announcing.awaiting_iff waits.turn
    generalize here : places i = place at leads announces
    generalize asked : x.request = r at leads
    cases announces with
    | asking =>
      cases leads with
      | finds mem joins pending role =>
        rw [attempts] at mem
        obtain rfl := waits.eq_of_joins exclusive mem joins pending
        rw [waits.role] at role
        obtain rfl := Option.some.inj role
        refine ⟨likers, told, announcing.read made .judging ?_ ?_ ?_ ?_ ?_⟩ <;>
          simp [asked, here, Course.hasLiked, Course.isAccepted, Course.isAdmitted]
      | misses absent =>
        rw [attempts] at absent
        exact absurd waits.pending (absent a waits.mem waits.joins)
    | judging =>
      cases leads with
      | waited turn =>
        have first := awaiting.1 turn
        refine ⟨likers, told, announcing.read made .answering ?_ ?_ ?_ ?_ ?_⟩ <;>
          simp [asked, here, first, Course.hasLiked, Course.isAccepted, Course.isAdmitted]
      | unawaited turn =>
        have written : likers ≠ [] := fun none => turn (awaiting.2 none)
        refine ⟨likers, told, announcing.read made .refused ?_ ?_ ?_ ?_ ?_⟩ <;>
          simp [asked, here, written, Course.hasLiked, Course.isAccepted, Course.isAdmitted]
    | answering =>
      cases leads with
      | answers tells => exact ⟨likers ++ [i], told, announcing.like made here asked tells⟩
    | telling =>
      cases leads with
      | looks describes =>
        refine ⟨likers, told, announcing.read made .telling ?_ ?_ ?_ ?_ ?_⟩ <;>
          simp [here, Course.hasLiked, Course.isAccepted, Course.isAdmitted]
        intro written
        rw [← asked, written] at describes
        cases describes
      | tells _ delivered =>
        exact ⟨likers, told ++ [i], announcing.tell made here asked delivered⟩
    | accepted => cases leads
    | refused => cases leads

end Announcing

/-- What has come of likes given at once. Each call that has read in time wrote a like and told the
second person; all others ended in `noPendingAttempt`. -/
structure Announced (link : String → String) (s : Store) (a : Attempt) (t : Traffic)
    (likers : List CallId) : Prop where
  nodup : likers.Nodup
  somebody : likers ≠ []
  early : ∀ i, i ∈ likers ↔ t.ReadsEarly i a.id
  accepted : ∀ i ∈ likers, ∃ c, t.flights[i]? = some ⟨c, .done .recorded⟩
  refused : ∀ i f, i ∉ likers → t.flights[i]? = some f →
    f.rest = .fail (.noPendingAttempt a.first a.second)
  /-- Notifications apart, nothing but likes is written. -/
  store : s.Tells a.id (List.replicate likers.length .firstLiked)
    { t.store with deliveries := s.deliveries }
  liked : t.store.notices .liked =
    s.notices .liked ++ List.replicate likers.length (a.second, s.noticeOf link a.first)
  matched : t.store.notices .matched = s.notices .matched

theorem Announcing.announced {likers told : List CallId}
    (announcing : t.Announcing link s a likers told places)
    (stands : t.Stands link s a.first a.second places) (quiet : t.isQuiet)
    (called : t.flights ≠ []) : t.Announced link s a likers := by
  have ended {i : CallId} {c : Call} (made : t.Made i c) :
      places i = .accepted ∨ places i = .refused := by
    obtain ⟨p, found⟩ := made
    exact (stands.ended quiet found).imp And.left And.left
  have member {i : CallId} {c : Call} (made : t.Made i c) :
      i ∈ likers ↔ places i = .accepted := by
    rw [announcing.liking.mem_iff]
    rcases ended made with place | place <;> rw [place] <;>
      simp [Course.hasLiked, Exists.intro c made]
  have everybody : told.length = likers.length := by
    refine ((List.perm_ext_iff_of_nodup announcing.telling.nodup announcing.liking.nodup).2 ?_)
      |>.length_eq
    intro i
    rw [announcing.telling.mem_iff, announcing.liking.mem_iff, and_congr_right_iff]
    rintro ⟨c, made⟩
    rcases ended made with place | place <;> rw [place] <;> rfl
  constructor
  case nodup => exact announcing.liking.nodup
  case somebody =>
    obtain ⟨f, rest, flights⟩ := List.exists_cons_of_ne_nil called
    have made : t.Made 0 f.call := ⟨f.rest, by rw [flights]; rfl⟩
    rcases ended made with accepted | refused
    · exact List.ne_nil_of_mem ((member made).2 accepted)
    · exact announcing.refused 0 _ made refused
  case early =>
    intro i
    by_cases started : i < t.flights.length
    · have made : t.Made i t.flights[i].call :=
        ⟨t.flights[i].rest, List.getElem?_eq_getElem started⟩
      rw [announcing.early i _ made, member made]
      rcases ended made with place | place <;> rw [place] <;> simp [Course.isAdmitted]
    · have silent : ¬t.ReadsEarly i a.id := not_readsEarly announcing.started (Nat.not_lt.1 started)
      rw [announcing.liking.mem_iff]
      refine iff_of_false ?_ silent
      rintro ⟨⟨c, made⟩, _⟩
      exact started made.lt
  case accepted =>
    intro i listed
    obtain ⟨⟨c, p, found⟩, _⟩ := (announcing.liking.mem_iff i).1 listed
    have accepted := (member ⟨p, found⟩).1 listed
    rcases stands.ended quiet found with ⟨_, rest⟩ | ⟨refused, _⟩
    · exact ⟨c, by rw [found, show p = _ from rest]⟩
    · rw [accepted] at refused
      cases refused
  case refused =>
    intro i f unlisted found
    rcases stands.ended quiet found with ⟨accepted, _⟩ | ⟨_, rest⟩
    · exact absurd ((member ⟨f.rest, found⟩).2 accepted) unlisted
    · exact rest
  case store => exact announcing.store
  case liked =>
    rw [announcing.liked, everybody]
  case matched => exact announcing.matched

/-- Of any number of overlapping first likes of one attempt, those succeed, and announce their like,
that read the last event before the first of them has written. The like is announced once exactly if
one call does so. -/
theorem likes_announced_of_readsEarly {s₀ : Store} {calls : List Call} (fresh : s₀.IsFresh)
    (undergoes : s₀.Undergoes link ruler calls s) (mem : a ∈ s.attempts) (pending : a.isPending)
    (turn : (s.stage a.id).awaiting = some .first)
    (reaches : Reaches ruler (.swipes a.first a.second [.like]) (opening s) t)
    (quiet : t.isQuiet) (called : t.flights ≠ []) (linked : t.IsLinked link) :
    ∃ likers, t.Announced link s a likers ∧
      (likers.length = 1 ↔ ∃! i, t.ReadsEarly i a.id) := by
  have exclusive := undergoes.isExclusive fresh
  have waits : s.Awaits a .first a.first a.second :=
    ⟨mem, by simp [Attempt.joins], pending, Role.of_first a, turn⟩
  obtain ⟨places, stands, likers, told, announcing⟩ :=
    reaches.keeps_strides (P := fun t places => ∃ likers told,
      t.Announcing link s a likers told places) linked ⟨[], [], .opening s⟩ (by
        intro t t' places places' held strides
        obtain ⟨likers, told, announcing⟩ := held
        exact announcing.stride exclusive waits strides)
  have announced := announcing.announced stands quiet called
  refine ⟨likers, announced, ?_⟩
  constructor
  · intro one
    obtain ⟨i, rfl⟩ := List.length_eq_one_iff.1 one
    refine ⟨i, (announced.early i).1 (List.mem_singleton_self i), ?_⟩
    intro j early
    exact List.mem_singleton.1 ((announced.early j).2 early)
  · rintro ⟨i, _, only⟩
    have same : ∀ j ∈ likers, j = i := fun j listed => only j ((announced.early j).1 listed)
    obtain ⟨j, rest, rfl⟩ := List.exists_cons_of_ne_nil announced.somebody
    have nodup := announced.nodup
    cases rest with
    | nil => rfl
    | cons k rest =>
      have twice : j = k := (same j (by simp)).trans (same k (by simp)).symm
      simp [twice] at nodup

def afterShowing : Store :=
  Store.couple.completeAll ("photos/" ++ ·) { photoBase := "photos" } (fun _ _ => some 0)
    [.next 0 ⟨1⟩]

def overlappingLikes : Traffic :=
  (Scene.answering 1 2 [.like]).perform (opening afterShowing) <|
    [.start (.swipe ⟨1⟩ 2 .like), .start (.swipe ⟨1⟩ 2 .like)] ++
      [.turn 0, .turn 1, .turn 0, .turn 1] ++ turns 0 ++ turns 1 ++
      [.start (.swipe ⟨1⟩ 2 .like)] ++ turns 2

theorem reaches_overlappingLikes :
    Reaches (fun _ _ => some 0) (.swipes 1 2 [.like]) (opening afterShowing) overlappingLikes := by
  have numbered : afterShowing.IsNumbered :=
    ⟨by decide +kernel, by decide +kernel, by decide +kernel⟩
  exact reaches_answering (by decide) numbered _ _

theorem likes_announced_of_readsEarly_overlappingLikes :
    overlappingLikes.flights.length = 3 ∧
      overlappingLikes.store.story 1 = [.created, .shownToFirst, .firstLiked, .firstLiked] ∧
      ∃ likers, overlappingLikes.Announced ("photos/" ++ ·) afterShowing
        ⟨1, 1, 2, .pending, ⟨1, 0⟩⟩ likers ∧
          (likers.length = 1 ↔ ∃! i, overlappingLikes.ReadsEarly i 1) := by
  refine ⟨by decide +kernel, by decide +kernel, ?_⟩
  exact likes_announced_of_readsEarly ⟨rfl, rfl, rfl, rfl⟩
    (Store.Undergoes.none.completeAll Store.isNumbered_couple _ _)
    (by decide +kernel) (by decide +kernel) (by decide +kernel) reaches_overlappingLikes
    (by decide +kernel)
    (by decide +kernel) (isLinked_of_all (by decide +kernel))

/-- A first like is not always written and announced once. -/
theorem like_announced_twice :
    ¬∀ (link : String → String) (ruler : Geo.Ruler) (s₀ s : Store) (calls : List Call) (a : Attempt)
      (t : Traffic), s₀.IsFresh → s₀.Undergoes link ruler calls s → a ∈ s.attempts → a.isPending →
      (s.stage a.id).awaiting = some .first →
      Reaches ruler (.swipes a.first a.second [.like]) (opening s) t → t.isQuiet → t.flights ≠ [] →
      t.IsLinked link →
        (∃! i : CallId, ∃ c, t.flights[i]? = some ⟨c, .done .recorded⟩) ∧
        t.store.story a.id = s.story a.id ++ [.firstLiked] ∧
        t.store.notices .liked = s.notices .liked ++ [(a.second, s.noticeOf link a.first)] := by
  intro once
  have claimed := once ("photos/" ++ ·) (fun _ _ => some 0) Store.couple afterShowing _
    ⟨1, 1, 2, .pending, ⟨1, 0⟩⟩ overlappingLikes ⟨rfl, rfl, rfl, rfl⟩
    (Store.Undergoes.none.completeAll Store.isNumbered_couple _ _)
    (by decide +kernel) (by decide +kernel) (by decide +kernel) reaches_overlappingLikes
    (by decide +kernel)
    (by decide +kernel) (isLinked_of_all (by decide +kernel))
  have twice : overlappingLikes.store.story 1 ≠ afterShowing.story 1 ++ [.firstLiked] := by
    decide +kernel
  exact twice claimed.2.1

end Traffic
end Matchmaking
