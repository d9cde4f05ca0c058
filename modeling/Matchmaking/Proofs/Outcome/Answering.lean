import Mathlib.Logic.Function.Basic
import Matchmaking.Proofs.Outcome.Accounting
import Matchmaking.Proofs.Engine.Course
import Matchmaking.Proofs.Traffic.History
import Matchmaking.Proofs.Traffic.Resumption
import Matchmaking.Proofs.Traffic.Schedule
/-! Any number of answers of one person to another one, in flight at once. Where nothing fails, each
call keeps its course, and every step either starts a call or leads one call on while all others
stand still. -/
namespace Matchmaking

section Completed

variable {link : String → String} {ruler : Geo.Ruler} {s s' : Store} {calls : List Call}

theorem Store.Yields.completes {α : Type} {p : Program α} {result : Except MatchError α}
    (yields : s.Yields link p result s') : s.Completes p s' := by
  induction yields with
  | done s a => exact .done s a
  | fail s e => exact .fail s e
  | call served linked rest ih => exact .call _ served ih

theorem Store.Undergoes.reaches (undergoes : s.Undergoes link ruler calls s') :
    ∃ t, Traffic.Reaches ruler .sequential (Traffic.opening s) t ∧ t.isQuiet ∧ t.store = s' := by
  induction undergoes with
  | none => exact ⟨Traffic.opening s, .refl, rfl, rfl⟩
  | @next _ c _ _ _ before yields ih =>
    obtain ⟨t, reaches, quiet, rfl⟩ := ih
    have allowed : Traffic.Rules.sequential.mayStart t c := quiet
    obtain ⟨t', reaches', quiet', store⟩ :=
      Traffic.reaches_of_quiet quiet allowed yields.completes
    exact ⟨t', reaches.trans reaches', quiet', store⟩

theorem Store.Undergoes.isExclusive (undergoes : s.Undergoes link ruler calls s')
    (fresh : s.IsFresh) : s'.IsExclusive := by
  obtain ⟨t, reaches, _, rfl⟩ := undergoes.reaches
  exact reaches.isExclusive fresh

theorem Store.Undergoes.inOrder (undergoes : s.Undergoes link ruler calls s')
    (fresh : s.IsFresh) : s'.InOrder link :=
  undergoes.keeps (.opening fresh) fun inOrder yields => inOrder.step yields.effect

end Completed

theorem Store.Awaits.eq_of_joins {s : Store} {a b : Attempt} {side : Role}
    {user candidate : UserId} (waits : s.Awaits a side user candidate)
    (exclusive : s.IsExclusive) (mem : b ∈ s.attempts) (joins : b.joins user candidate)
    (pending : b.isPending) : b = a :=
  exclusive.eq_of_joins waits.mem waits.pending waits.joins mem pending joins

theorem Store.isNumbered_couple : Store.couple.IsNumbered where
  nodup := List.nodup_nil
  id_le _ mem := nomatch mem
  number_le _ mem := nomatch mem

def Exchange.isLinked (link : String → String) : Exchange → Bool
  | ⟨.photoLink key, .ok told⟩ => told == link key
  | ⟨.photoLink _, .error _⟩ => false
  | _ => true

namespace Traffic

/-- Every photo that was asked for got its link. -/
def IsLinked (link : String → String) (t : Traffic) : Prop :=
  ∀ entry ∈ t.history, entry.2.request.IsLinked link entry.2.reply

/-- The person answers the candidate, with one of these verdicts, in calls that overlap freely; none
fails or is dropped. -/
def Rules.swipes (user candidate : UserId) (verdicts : List Verdict) : Rules where
  mayStart _ c := ∃ principal verdict, Engine.identify principal = .ok user ∧
    verdict ∈ verdicts ∧ c = .swipe principal candidate verdict
  mayFail := False

variable {link : String → String} {ruler : Geo.Ruler} {s : Store} {user candidate : UserId}
  {verdicts : List Verdict} {t t' : Traffic} {places : CallId → Course}

theorem isLinked_of_all (all : t.history.all fun entry => entry.2.isLinked link) :
    t.IsLinked link := by
  intro entry mem
  have linked := List.all_eq_true.1 all entry mem
  obtain ⟨i, r, reply⟩ := entry
  cases r with
  | photoLink key =>
    cases reply with
    | error e => cases linked
    | ok told => exact congrArg Except.ok (eq_of_beq linked)
  | _ => trivial

/-- The people are those of that store, and every call stands at its place, from where it keeps its
course. -/
structure Stands (link : String → String) (s : Store) (user candidate : UserId)
    (places : CallId → Course) (t : Traffic) : Prop where
  profiles : t.store.profiles = s.profiles
  photos : t.store.photos = s.photos
  ends : ∀ {i : CallId} {f : Flight}, t.flights[i]? = some f →
    f.rest.Ends (Course.protocol link s user candidate) (Course.Ended user candidate .recorded)
      (places i)

/-- One step of traffic with the places of all calls before and after. -/
inductive Strides (link : String → String) (ruler : Geo.Ruler) (s : Store)
    (user candidate : UserId) (verdicts : List Verdict) (t : Traffic) (places : CallId → Course) :
    Traffic → (CallId → Course) → Prop
  | starts {principal : Principal} {verdict : Verdict} (given : verdict ∈ verdicts) :
      Strides link ruler s user candidate verdicts t places
        (t.launch ruler (.swipe principal candidate verdict))
        (Function.update places t.flights.length (.asking verdict))
  | goes {i : CallId} {c : Call} {x : Exchange} {pos : Course} {s' : Store}
      {p : Program Call.Result} (made : t.Made i c)
      (leads : Course.Leads link s user candidate t.store (places i) x.request pos s') :
      Strides link ruler s user candidate verdicts t places (t.proceed i x p s')
        (Function.update places i pos)

theorem IsLinked.of_proceed {i : CallId} {x : Exchange} {p : Program Call.Result} {s' : Store}
    (linked : (t.proceed i x p s').IsLinked link) :
    t.IsLinked link ∧ x.request.IsLinked link x.reply :=
  ⟨fun entry mem => linked entry (mem_history_proceed.2 (Or.inl mem)),
    linked (i, x) (mem_history_proceed.2 (Or.inr rfl))⟩

namespace Stands

theorem opening (s : Store) : (opening s).Stands link s user candidate places where
  profiles := rfl
  photos := rfl
  ends found := by simp [Traffic.opening] at found

theorem launch (stands : t.Stands link s user candidate places) {principal : Principal}
    (identified : Engine.identify principal = .ok user) (verdict : Verdict) :
    (t.launch ruler (.swipe principal candidate verdict)).Stands link s user candidate
      (Function.update places t.flights.length (.asking verdict)) where
  profiles := stands.profiles
  photos := stands.photos
  ends {i f} found := by
    rcases flight_launch found with found | ⟨rfl, rfl⟩
    · have early : i ≠ t.flights.length :=
        Nat.ne_of_lt (List.getElem?_eq_some_iff.1 found).1
      rw [Function.update_of_ne early]
      exact stands.ends found
    · rw [Function.update_self]
      exact Course.ends_program identified verdict ruler

theorem proceed (stands : t.Stands link s user candidate places) {i : CallId} {c : Call}
    {r : Request} {k : r.Reply → Program Call.Result} {reply : r.Reply} {s' : Store}
    (aloft : t.flights[i]? = some ⟨c, .call r k⟩) (served : t.store.Serves r reply s')
    (linked : r.IsLinked link reply) :
    (t.proceed i ⟨r, reply⟩ (k reply) s').Stands link s user candidate
      (Function.update places i (Course.next user (places i) r reply)) where
  profiles := served.samePeople.profiles.trans stands.profiles
  photos := served.samePeople.photos.trans stands.photos
  ends {j f} found := by
    rcases flight_proceed aloft found with ⟨rfl, rfl⟩ | ⟨ne, found⟩
    · rw [Function.update_self]
      exact (stands.ends aloft).2 reply
        ⟨⟨t.store, s', stands.profiles, stands.photos, served⟩, linked⟩
    · rw [Function.update_of_ne ne]
      exact stands.ends found

/-- Where every call keeps its course, each step is a stride. -/
theorem strides (stands : t.Stands link s user candidate places)
    (step : Step ruler (.swipes user candidate verdicts) t t') (linked : t'.IsLinked link) :
    ∃ places', Strides link ruler s user candidate verdicts t places t' places' ∧
      t'.Stands link s user candidate places' := by
  cases step with
  | starts c allowed =>
    obtain ⟨principal, verdict, identified, given, rfl⟩ := allowed
    exact ⟨_, .starts given, stands.launch identified verdict⟩
  | serves aloft served =>
    have permitted := (stands.ends aloft).1
    exact ⟨_, .goes ⟨_, aloft⟩ (Course.leads_of_serves permitted served),
      stands.proceed aloft served linked.of_proceed.2⟩
  | refuses e aloft allowed => exact allowed.elim
  | drops aloft allowed => exact allowed.elim

theorem ended (stands : t.Stands link s user candidate places) (quiet : t.isQuiet) {i : CallId}
    {f : Flight} (found : t.flights[i]? = some f) :
    (places i = .accepted ∧ f.rest = .done .recorded) ∨
      (places i = .refused ∧ f.rest = .fail (.noPendingAttempt user candidate)) := by
  have stopped := List.all_eq_true.1 quiet f (List.mem_of_getElem? found)
  have ends := stands.ends found
  generalize places i = place at ends ⊢
  cases rest : f.rest with
  | call r k => simp [rest, Program.isRunning] at stopped
  | done result =>
    rw [rest] at ends
    cases place <;> cases ends
    exact Or.inl ⟨rfl, rfl⟩
  | fail e =>
    rw [rest] at ends
    cases place <;> cases ends
    exact Or.inr ⟨rfl, rfl⟩

end Stands

/-- What every stride keeps holds wherever answers lead. -/
theorem Reaches.keeps_strides {P : Traffic → (CallId → Course) → Prop}
    (reaches : Reaches ruler (.swipes user candidate verdicts) (opening s) t)
    (linked : t.IsLinked link) (start : P (opening s) fun _ => .refused)
    (keep : ∀ {t t' places places'}, P t places →
      Strides link ruler s user candidate verdicts t places t' places' → P t' places') :
    ∃ places, t.Stands link s user candidate places ∧ P t places := by
  induction reaches with
  | refl => exact ⟨_, .opening s, start⟩
  | @tail t t' before step ih =>
    have earlier : t.IsLinked link := by
      cases step with
      | starts c allowed => exact linked
      | serves aloft served => exact linked.of_proceed.1
      | refuses e aloft allowed => exact allowed.elim
      | drops aloft allowed => exact allowed.elim
    obtain ⟨places, stands, held⟩ := ih earlier
    obtain ⟨places', strides, stands'⟩ := stands.strides step linked
    exact ⟨places', stands', keep held strides⟩

section Calls

variable {i j : CallId} {c d : Call} {x : Exchange} {p : Program Call.Result} {s' : Store}

theorem made_launch (made : (t.launch ruler c).Made i d) :
    t.Made i d ∨ (i = t.flights.length ∧ d = c) := by
  obtain ⟨p, found⟩ := made
  rcases flight_launch found with found | ⟨here, same⟩
  · exact Or.inl ⟨p, found⟩
  · exact Or.inr ⟨here, congrArg Flight.call same⟩

theorem made_of_proceed (made : (t.proceed i x p s').Made j d) : t.Made j d := by
  obtain ⟨q, found⟩ := made
  rw [Traffic.proceed, List.getElem?_modify] at found
  obtain ⟨f, aloft, same⟩ := Option.map_eq_some_iff.1 found
  have call : f.call = d := by
    have told := congrArg Flight.call same
    by_cases here : i = j
    · rwa [if_pos here] at told
    · rwa [if_neg here] at told
  exact ⟨f.rest, by rw [aloft, ← call]⟩

theorem Made.unique (made : t.Made i c) (made' : t.Made i d) : c = d := by
  obtain ⟨p, found⟩ := made
  obtain ⟨q, found'⟩ := made'
  rw [found] at found'
  exact congrArg Flight.call (Option.some.inj found')

theorem Made.lt (made : t.Made i c) : i < t.flights.length := by
  obtain ⟨p, found⟩ := made
  exact (List.getElem?_eq_some_iff.1 found).1

end Calls

/-- A place where only such answers are given, and all goes well. -/
def Scene.answering (user candidate : UserId) (verdicts : List Verdict) : Scene where
  ruler _ _ := some 0
  around := { photoBase := "photos" }
  mayStart _ c := verdicts.any fun verdict => c = .swipe ⟨user⟩ candidate verdict
  mayFail := false

theorem reaches_answering (somebody : user ≠ 0) (numbered : t.store.IsNumbered)
    (verdicts : List Verdict) (moves : List Move) :
    Reaches (fun _ _ => some 0) (.swipes user candidate verdicts) t
      ((Scene.answering user candidate verdicts).perform t moves) := by
  refine (Scene.reaches_perform (Scene.answering user candidate verdicts) numbered moves).mono ?_
    fun fails => Bool.noConfusion fails
  intro _ c allowed
  obtain ⟨verdict, given, same⟩ := List.any_eq_true.1 allowed
  exact ⟨⟨user⟩, verdict, if_neg somebody, given, of_decide_eq_true same⟩

end Traffic
end Matchmaking
