import Matchmaking.Proofs.Engine.Completion
import Matchmaking.Proofs.Engine.Requests
/-! Calls that may be cut off. At any request such a call may be dropped, or the request fails
without effect and the call goes on from there. Unlike a completed call, it may leave only the first
of the events that it had to write. -/
namespace Matchmaking

def Happening.missing : Option Happening → List Happening
  | none => [.created, .shownToFirst]
  | some .shownToFirst => []
  | some _ => [.shownToFirst]

namespace Store

variable {link : String → String} {faulty : Prop} {α : Type} {s s₁ s' : Store} {r : Request}
  {reply : r.Reply}

theorem Serves.eq_of_plain (served : s.Serves r reply s') (plain : r.isPlain) : s' = s := by
  cases served <;> first | rfl | cases plain

/-- What the contract lets a store reply is no failure that a call would end with. -/
theorem Serves.alarm? (served : s.Serves r reply s') (linked : r.IsLinked link reply)
    (choosing : Bool) : r.alarm? choosing reply = none := by
  cases served <;> first | rfl | (cases linked; rfl)

/-- Of all likes of that person, this one is the oldest; ids decide between equals. -/
def Ranks (s : Store) : (r : Request) → r.Reply → Prop
  | .likerOf u, .ok (some a) => ∀ b, s.IsLiker u b → a.precedes b
  | _, _ => True

/-- A program with the result that it ends with, unless it is dropped, and the store that it
leaves. -/
inductive Ventures (link : String → String) (faulty : Prop) {α : Type} :
    Store → Program α → Option (Except MatchError α) → Store → Prop
  | done (s : Store) (a : α) : Ventures link faulty s (.done a) (some (.ok a)) s
  | fail (s : Store) (e : MatchError) : Ventures link faulty s (.fail e) (some (.error e)) s
  | serves {s s₁ s' : Store} {r : Request} {k : r.Reply → Program α} {reply : r.Reply}
      {outcome : Option (Except MatchError α)} (served : s.Serves r reply s₁)
      (ranked : s.Ranks r reply) (linked : r.IsLinked link reply)
      (rest : Ventures link faulty s₁ (k reply) outcome s') :
      Ventures link faulty s (.call r k) outcome s'
  | refuses {s s' : Store} {r : Request} {k : r.Reply → Program α}
      {outcome : Option (Except MatchError α)} (allowed : faulty) (e : StoreError)
      (rest : Ventures link faulty s (k (r.refusal e)) outcome s') :
      Ventures link faulty s (.call r k) outcome s'
  | drops (s : Store) (r : Request) (k : r.Reply → Program α) (allowed : faulty) :
      Ventures link faulty s (.call r k) none s

/-- Of what had to be told of an attempt, the first part has been. -/
structure Partly (s : Store) (id : AttemptId) (hs told : List Happening) (s' : Store) : Prop where
  part : told <+: hs
  tells : s.Tells id told s'
  idle : told = [] → s' = s

namespace Partly

variable {id : AttemptId} {hs hs' told told' : List Happening}

theorem none (s : Store) (id : AttemptId) (hs : List Happening) : s.Partly id hs [] s :=
  ⟨List.nil_prefix, .refl s id, fun _ => rfl⟩

theorem mono (partly : s.Partly id hs told s') (longer : hs <+: hs') : s.Partly id hs' told s' :=
  ⟨partly.part.trans longer, partly.tells, partly.idle⟩

theorem trans (first : s.Partly id (told ++ hs) told s₁) (more : s₁.Partly id hs told' s') :
    s.Partly id (told ++ hs) (told ++ told') s' where
  part := (List.prefix_append_right_inj told).2 more.part
  tells := first.tells.trans more.tells
  idle none := by
    obtain ⟨none₁, none₂⟩ := List.append_eq_nil_iff.1 none
    rw [more.idle none₂, first.idle none₁]

end Partly

end Store

namespace Keeper

open Store Engine

variable {keeper : Keeper Store} {link : String → String} {faulty : Prop} {α β : Type}
  {s s₁ s' : Store} {p : Program α} {f : α → Program β}
  {outcome : Option (Except MatchError α)} {outcome' : Option (Except MatchError β)}

/-- The replies are what the contract of the stores allows, and every photo has its link. -/
structure IsBound (keeper : Keeper Store) (link : String → String) : Prop where
  serves : ∀ {s r reply s'}, keeper s r reply s' → s.Serves r reply s'
  links : ∀ {s r reply s'}, keeper s r reply s' → r.IsLinked link reply

theorem serving_isBound : (serving link).IsBound link := ⟨And.left, And.right⟩

namespace Trails

theorem makes {ok : Request → Prop} {Q : α → Prop} (makes : p.Makes ok Q) {a : α}
    (trails : keeper.Trails faulty s p (some (.ok a)) s') : Q a := by
  induction p generalizing s with
  | done b =>
    obtain ⟨same, _⟩ := trails.of_done
    cases same
    exact makes
  | fail e => exact nomatch trails.of_fail.1
  | call r k ih =>
    cases trails with
    | serves _ rest => exact ih _ (makes.2 _) rest
    | refuses _ _ rest => exact ih _ (makes.2 _) rest

section Bound

variable (bound : keeper.IsBound link)

include bound

theorem samePeople (trails : keeper.Trails faulty s p outcome s') : s.SamePeople s' := by
  induction trails with
  | done s => exact .refl s
  | fail s => exact .refl s
  | serves served _ ih => exact (bound.serves served).samePeople.trans ih
  | refuses _ _ _ ih => exact ih
  | drops s => exact .refl s

section Reading

theorem reads (only : p.Only Plain) (trails : keeper.Trails faulty s p outcome s') : s' = s := by
  induction trails with
  | done => rfl
  | fail => rfl
  | serves served _ ih =>
    rw [ih (only.2 _)]
    exact (bound.serves served).eq_of_plain only.1
  | refuses _ e _ ih => exact ih (only.2 _)
  | drops => rfl

/-- A program without errors of its own ends well, unless it is cut off. -/
theorem ends_well {Q : Bool → α → Prop} {b : Bool}
    (heeds : p.Heeds { fails := fun _ => False } Q b)
    (trails : keeper.Trails faulty s p outcome s') :
    (∃ a, outcome = some (.ok a)) ∨ IsCut faulty outcome := by
  induction trails generalizing b with
  | done s a => exact Or.inl ⟨a, rfl⟩
  | fail s e => exact heeds.elim
  | @serves _ _ _ r _ reply _ served _ ih =>
    have after := heeds.2.2 reply fun _ _ => trivial
    rw [(bound.serves served).alarm? (bound.links served)] at after
    exact ih after
  | @refuses _ _ r k _ allowed e rest ih =>
    have after := heeds.2.2 (r.refusal e) fun _ _ => trivial
    split at after
    · next error _ =>
      rw [after] at rest
      exact Or.inr ⟨allowed, some error, rest.of_fail.1⟩
    · exact ih after
  | drops _ _ _ allowed => exact Or.inr ⟨allowed, none, rfl⟩

theorem of_reading {r : Request} {k : r.Reply → Program α} {reply : r.Reply}
    (trails : keeper.Trails faulty s (.call r k) outcome s')
    (reads : s.reading? link r = some reply) (strict : ∀ e, ∃ err, k (r.refusal e) = .fail err) :
    keeper.Trails faulty s (k reply) outcome s' ∨ (IsCut faulty outcome ∧ s' = s) := by
  rcases trails.of_asking strict with ⟨reply', s₁, served, rest⟩ | cut
  · left
    have linked := bound.links served
    cases bound.serves served <;> cases reads <;> first | exact rest | (cases linked; exact rest)
  · exact Or.inr cut

theorem linkPhotos {keys : List String} {outcome : Option (Except MatchError (List Photo))}
    (trails : keeper.Trails faulty s (Engine.linkPhotos keys) outcome s') :
    s' = s ∧ (outcome = some (.ok (keys.map fun key => ⟨key, link key⟩)) ∨
      IsCut faulty outcome) := by
  refine ⟨trails.reads bound (only_linkPhotos keys), ?_⟩
  induction keys generalizing outcome s' with
  | nil => exact Or.inl trails.of_done.1
  | cons key rest ih =>
    rcases trails.of_reading bound rfl fun e => ⟨_, rfl⟩ with after | ⟨cut, _⟩
    · have after : keeper.Trails faulty s
          (Engine.linkPhotos rest >>= fun photos => .done (⟨key, link key⟩ :: photos)) outcome s' :=
        after
      rcases after.of_bind_of_eq fun first => ⟨first.reads bound (only_linkPhotos rest), ih first⟩
        with after | ⟨cut, _⟩
      · exact Or.inl after.of_done.1
      · exact Or.inr cut
    · exact Or.inr cut

theorem showcase {user : UserId} {outcome : Option (Except MatchError Showcase)}
    (trails : keeper.Trails faulty s (Engine.showcase user) outcome s') :
    s' = s ∧ (outcome = some (s.shown link user) ∨ IsCut faulty outcome) := by
  refine ⟨trails.reads bound (only_showcase user), ?_⟩
  rcases trails.of_reading bound rfl fun e => ⟨_, rfl⟩ with after | ⟨cut, _⟩
  · cases found : s.profileOf? user with
    | none =>
      rw [found] at after
      rw [shown, found]
      exact Or.inl after.of_fail.1
    | some profile =>
      rw [found] at after
      rw [shown, found]
      rcases after.of_reading bound rfl fun e => ⟨_, rfl⟩ with after | ⟨cut, _⟩
      · have after : keeper.Trails faulty s (Engine.linkPhotos (s.photosOf user) >>= fun photos =>
            .done ⟨profile, photos⟩) outcome s' := after
        rcases after.of_bind_of_eq (linkPhotos bound) with after | ⟨cut, _⟩
        · exact Or.inl after.of_done.1
        · exact Or.inr cut
      · exact Or.inr cut
  · exact Or.inr cut

theorem of_lastHappening {id : AttemptId} {f : Option Happening → Program β}
    (trails : keeper.Trails faulty s (lastHappening id >>= f) outcome' s') :
    keeper.Trails faulty s (f (s.lastHappening? id)) outcome' s' ∨
      (IsCut faulty outcome' ∧ s' = s) := by
  rcases of_asking trails fun e => ⟨_, rfl⟩ with ⟨reply, s₁, served, rest⟩ | cut
  · cases bound.serves served
    exact Or.inl rest
  · exact Or.inr cut

end Reading

section Choosing

variable {ruler : Geo.Ruler} {person : Person}

theorem isOther_of_chosen {chosen : Option UserId}
    (trails : keeper.Trails faulty s (chooseCandidate ruler person) (some (.ok chosen)) s') :
    ∀ v ∈ chosen, s.IsOther person.profile.userId v := by
  rcases trails.of_asking fun e => ⟨_, rfl⟩ with ⟨reply, s₁, served, rest⟩ | ⟨cut, _⟩
  · cases bound.serves served with
    | @validUsers ids all =>
      intro v found
      obtain ⟨listed, other⟩ := rest.makes (makes_pick ids) v found
      exact ⟨other, ((all v).1 listed).1⟩
  · exact absurd rfl cut.not_ok

theorem of_chooseCandidate {f : Option UserId → Program β}
    (trails : keeper.Trails faulty s (chooseCandidate ruler person >>= f) outcome' s') :
    (∃ chosen,
      keeper.Trails faulty s (chooseCandidate ruler person) (some (.ok chosen)) s ∧
        keeper.Trails faulty s (f chosen) outcome' s') ∨
      (IsCut faulty outcome' ∧ s' = s) := by
  rcases trails.of_bind with ⟨chosen, s₁, first, second⟩ | ⟨why, first, stopped⟩
  · obtain rfl := first.reads bound only_chooseCandidate
    exact Or.inl ⟨chosen, first, second⟩
  · refine Or.inr ⟨?_, first.reads bound only_chooseCandidate⟩
    rcases first.ends_well bound (b := false) (heeds_chooseCandidate fun _ _ => trivial) with
      ⟨chosen, told⟩ | cut
    · cases why <;> cases told
    · exact ⟨cut.1, why, stopped⟩

end Choosing

end Bound

end Trails

section Writing

variable {id : AttemptId} {hs hs' : List Happening}

def Narrates (keeper : Keeper Store) (faulty : Prop) (id : AttemptId) (hs : List Happening)
    (p : Program Unit) : Prop :=
  ∀ ⦃s s' : Store⦄ ⦃outcome : Option (Except MatchError Unit)⦄,
    keeper.Trails faulty s p outcome s' → ∃ told, s.Partly id hs told s' ∧
      (told = hs ∧ outcome = some (.ok ()) ∨ IsCut faulty outcome)

theorem narrates_nothing : Narrates keeper faulty id [] (.done ()) := by
  intro s s' outcome trails
  obtain ⟨told, rfl⟩ := trails.of_done
  exact ⟨[], .none _ id [], Or.inl ⟨rfl, told⟩⟩

theorem Narrates.then {p q : Program Unit} (first : Narrates keeper faulty id hs p)
    (second : Narrates keeper faulty id hs' q) :
    Narrates keeper faulty id (hs ++ hs') (p >>= fun _ => q) := by
  intro s s' outcome trails
  rcases trails.of_bind with ⟨_, s₁, before, after⟩ | ⟨why, before, rfl⟩
  · obtain ⟨told, partly, ⟨rfl, _⟩ | cut⟩ := first before
    · obtain ⟨told', partly', ends⟩ := second after
      refine ⟨told ++ told', (partly.mono (List.prefix_append told hs')).trans partly', ?_⟩
      exact ends.imp_left (And.imp_left (congrArg (told ++ ·)))
    · exact absurd rfl cut.not_ok
  · obtain ⟨told, partly, ⟨_, same⟩ | cut⟩ := first before
    · cases why <;> cases same
    · exact ⟨told, partly.mono (List.prefix_append hs hs'), Or.inr cut⟩

variable (bound : keeper.IsBound link)

include bound

theorem narrates_append (h : Happening) : Narrates keeper faulty id [h] (append id h) := by
  intro s s' outcome trails
  rcases trails.of_asking fun e => ⟨_, rfl⟩ with ⟨reply, s₁, served, rest⟩ | ⟨cut, rfl⟩
  · cases bound.serves served with
    | appends number createdAt clock =>
      obtain ⟨told, rfl⟩ := rest.of_done
      refine ⟨[h], ⟨List.prefix_rfl, .withEvent s ⟨number, id, createdAt, h⟩ clock, nofun⟩, ?_⟩
      exact Or.inl ⟨rfl, told⟩
  · exact ⟨[], .none _ id [h], Or.inr cut⟩

theorem narrates_completeShowing (last : Option Happening) :
    Narrates keeper faulty id (Happening.missing last) (completeShowing id last) := by
  cases last with
  | none => exact (narrates_append bound .created).then (narrates_append bound .shownToFirst)
  | some h =>
    cases h
    case shownToFirst => exact narrates_nothing
    all_goals exact narrates_append bound .shownToFirst

/-- Events of a showing are written, and then the other person is shown. -/
theorem Trails.of_showing {p : Program Unit} (narrates : Narrates keeper faulty id hs p)
    {v : UserId} {outcome : Option (Except MatchError (Option Showcase))}
    (trails : keeper.Trails faulty s
      (p >>= fun _ => Engine.showcase v >>= fun partner => .done (some partner)) outcome s') :
    ∃ told, s.Partly id hs told s' ∧
      (told = hs ∧ outcome = some ((s.shown link v).map some) ∨ IsCut faulty outcome) := by
  rcases trails.of_bind with ⟨_, s₁, before, after⟩ | ⟨why, before, rfl⟩
  · obtain ⟨told, partly, ⟨rfl, _⟩ | cut⟩ := narrates before
    · rw [← partly.tells.samePeople.shown]
      rcases after.of_bind with ⟨partner, s₂, first, second⟩ | ⟨why, first, rfl⟩
      · obtain ⟨rfl, same | cut⟩ := first.showcase bound
        · obtain ⟨rfl, rfl⟩ := second.of_done
          rw [← Option.some.inj same]
          exact ⟨told, partly, Or.inl ⟨rfl, rfl⟩⟩
        · exact absurd rfl cut.not_ok
      · obtain ⟨rfl, same | cut⟩ := first.showcase bound
        · refine ⟨told, partly, Or.inl ⟨rfl, ?_⟩⟩
          cases why with
          | none => cases same
          | some e =>
            rw [← Option.some.inj same]
            rfl
        · exact ⟨told, partly, Or.inr ⟨cut.1, why, rfl⟩⟩
    · exact absurd rfl cut.not_ok
  · obtain ⟨told, partly, ⟨_, same⟩ | cut⟩ := narrates before
    · cases why <;> cases same
    · exact ⟨told, partly, Or.inr ⟨cut.1, why, rfl⟩⟩

end Writing

section Faithful

/-- A keeper bound by the contract of the stores that links every photo. -/
def faithful (link : String → String) : Keeper Store := fun s r reply s' =>
  s.Serves r reply s' ∧ s.Ranks r reply ∧ r.IsLinked link reply

theorem faithful_isBound : (faithful link).IsBound link := ⟨And.left, fun served => served.2.2⟩

theorem faithful_trails :
    (faithful link).Trails faulty s p outcome s' ↔ s.Ventures link faulty p outcome s' := by
  constructor
  · intro trails
    induction trails with
    | done s a => exact .done s a
    | fail s e => exact .fail s e
    | serves served _ ih => exact .serves served.1 served.2.1 served.2.2 ih
    | refuses allowed e _ ih => exact .refuses allowed e ih
    | drops s r k allowed => exact .drops s r k allowed
  · intro ventures
    induction ventures with
    | done s a => exact .done s a
    | fail s e => exact .fail s e
    | serves served ranked linked _ ih => exact .serves ⟨served, ranked, linked⟩ ih
    | refuses allowed e _ ih => exact .refuses allowed e ih
    | drops s r k allowed => exact .drops s r k allowed

/-- Where nothing fails, a call that may be cut off is run by a faithful keeper. -/
theorem faithful_runs {result : Except MatchError α} :
    (faithful link).Runs s p result s' ↔ s.Ventures link False p (some result) s' :=
  ⟨fun runs => faithful_trails.1 (runs.trails False),
    fun ventures => .of_trails (faithful_trails.2 ventures)⟩

end Faithful

end Keeper

namespace Store

variable {link : String → String} {faulty : Prop} {α : Type} {s s' : Store} {p : Program α}
  {outcome : Option (Except MatchError α)}

theorem Ventures.samePeople (ventures : s.Ventures link faulty p outcome s') : s.SamePeople s' :=
  (Keeper.faithful_trails.2 ventures).samePeople Keeper.faithful_isBound

theorem Yields.samePeople {result : Except MatchError α} (yields : s.Yields link p result s') :
    s.SamePeople s' :=
  ((runs_serving.2 yields).trails False).samePeople Keeper.serving_isBound

theorem Ventures.yields_of_ended {result : Except MatchError α}
    (ventures : s.Ventures link False p (some result) s') : s.Yields link p result s' :=
  runs_serving.1 ((Keeper.faithful_runs.2 ventures).mono fun served => ⟨served.1, served.2.2⟩)

section Running

/-- Runs a program until it has had that many requests answered, and drops it then. -/
def cutShort (link : String → String) (around : Surroundings) (s : Store) :
    Nat → Program α → Option (Except MatchError α) × Store
  | _, .done a => (some (.ok a), s)
  | _, .fail e => (some (.error e), s)
  | 0, .call _ _ => (none, s)
  | n + 1, .call r k =>
    let (reply, s) := s.answer link around r
    s.cutShort link around n (k reply)

theorem ranks_likerOf? (s : Store) (user : UserId) :
    s.Ranks (.likerOf user) (.ok (s.likerOf? user)) := by
  cases found : s.likerOf? user with
  | none => trivial
  | some a =>
    intro b liker
    exact (head?_inOrder_eq_some found).2 b (isLiker_iff.1 liker)

theorem ranks_answer (link : String → String) (around : Surroundings) (s : Store) (r : Request) :
    s.Ranks r (s.answer link around r).1 := by
  cases r
  case likerOf u => exact s.ranks_likerOf? u
  all_goals trivial

theorem ventures_cutShort (numbered : s.IsNumbered) (around : Surroundings) (n : Nat)
    (p : Program α) :
    s.Ventures link True p (s.cutShort link around n p).1 (s.cutShort link around n p).2 ∧
      (s.cutShort link around n p).2.IsNumbered := by
  induction p generalizing s n with
  | done a => cases n <;> exact ⟨.done s a, numbered⟩
  | fail e => cases n <;> exact ⟨.fail s e, numbered⟩
  | call r k ih =>
    cases n with
    | zero => exact ⟨.drops s r k trivial, numbered⟩
    | succ n =>
      obtain ⟨served, linked, numbered⟩ := serves_answer link numbered around r
      obtain ⟨ventures, numbered⟩ := ih _ numbered n
      exact ⟨.serves served (ranks_answer link around s r) linked ventures, numbered⟩

theorem ventures_complete (link : String → String) (faulty : Prop) (numbered : s.IsNumbered)
    (around : Surroundings) (p : Program α) :
    s.Ventures link faulty p (some (s.complete link around p).1) (s.complete link around p).2 := by
  induction p generalizing s with
  | done a => exact .done s a
  | fail e => exact .fail s e
  | call r k ih =>
    obtain ⟨served, linked, numbered⟩ := serves_answer link numbered around r
    exact .serves served (ranks_answer link around s r) linked (ih _ numbered)

end Running

end Store
end Matchmaking
