import Mathlib.Logic.Relation
import Matchmaking.Proofs.Engine.Conduct
import Matchmaking.Proofs.Store.Contract
/-! Any number of calls in flight over one store. One step starts a call, or lets a call in flight
get one request answered. Where calls may fail, it may also refuse a request without effect, or
drop the call for good. -/
namespace Matchmaking

/-- Calls are told apart by the order in which they start. -/
abbrev CallId := Nat

structure Flight where
  call : Call
  rest : Program Call.Result

structure Traffic where
  store : Store
  flights : List Flight := []
  /-- What was asked and answered, in order, with the call that asked. -/
  history : List (CallId × Exchange) := []

def Program.isRunning {α : Type} : Program α → Bool
  | call _ _ => true
  | _ => false

namespace Traffic

def opening (s : Store) : Traffic := { store := s }

def launch (t : Traffic) (ruler : Geo.Ruler) (c : Call) : Traffic :=
  { t with flights := t.flights ++ [⟨c, c.program ruler⟩] }

def proceed (t : Traffic) (i : CallId) (x : Exchange) (rest : Program Call.Result) (s : Store) :
    Traffic where
  store := s
  flights := t.flights.modify i fun f => { f with rest }
  history := t.history ++ [(i, x)]

def drop (t : Traffic) (i : CallId) : Traffic :=
  { t with flights := t.flights.modify i fun f => { f with rest := .fail .timedOut } }

def isQuiet (t : Traffic) : Bool := t.flights.all fun f => !f.rest.isRunning

def said (t : Traffic) (i : CallId) : List Exchange :=
  t.history.filterMap fun entry => if entry.1 = i then some entry.2 else none

def stance (t : Traffic) (i : CallId) (c : Call) : Stance := c.protocol.after .free (t.said i)

structure Runs (t : Traffic) (i : CallId) (c : Call) (st : Stance) : Prop where
  aloft : ∃ r k, t.flights[i]? = some ⟨c, .call r k⟩
  stance : t.stance i c = st

def Asks (t : Traffic) (i : CallId) (r : Request) : Prop :=
  ∃ c k, t.flights[i]? = some ⟨c, .call r k⟩

/-- What the steps of some traffic may be. -/
structure Rules where
  mayStart : Traffic → Call → Prop
  mayFail : Prop

namespace Rules

def any : Rules := ⟨fun _ _ => True, True⟩

/-- Calls overlap freely, and none fails or is dropped. -/
def unfailing : Rules := ⟨fun _ _ => True, False⟩

/-- As before, but no user starts a call while one of their own is in flight. -/
def oneEach : Rules := ⟨fun t c => ∀ i d st, t.Runs i d st → d.user ≠ c.user, False⟩

/-- One call at a time, which may fail or be dropped. -/
def sequential : Rules := ⟨fun t _ => t.isQuiet, True⟩

def between (u v : UserId) : Rules := ⟨fun t c => t.isQuiet ∧ (c.user = u ∨ c.user = v), False⟩

end Rules

inductive Step (ruler : Geo.Ruler) (rules : Rules) (t : Traffic) : Traffic → Prop
  | starts (c : Call) (allowed : rules.mayStart t c) : Step ruler rules t (t.launch ruler c)
  | serves {i : CallId} {c : Call} {r : Request} {k : r.Reply → Program Call.Result}
      {reply : r.Reply} {s : Store} (aloft : t.flights[i]? = some ⟨c, .call r k⟩)
      (served : t.store.Serves r reply s) :
      Step ruler rules t (t.proceed i ⟨r, reply⟩ (k reply) s)
  | refuses {i : CallId} {c : Call} {r : Request} {k : r.Reply → Program Call.Result}
      (e : StoreError) (aloft : t.flights[i]? = some ⟨c, .call r k⟩) (allowed : rules.mayFail) :
      Step ruler rules t (t.proceed i ⟨r, r.refusal e⟩ (k (r.refusal e)) t.store)
  | drops {i : CallId} {c : Call} {r : Request} {k : r.Reply → Program Call.Result}
      (aloft : t.flights[i]? = some ⟨c, .call r k⟩) (allowed : rules.mayFail) :
      Step ruler rules t (t.drop i)

/-- Steps under these rules lead from one traffic to the other. -/
abbrev Reaches (ruler : Geo.Ruler) (rules : Rules) : Traffic → Traffic → Prop :=
  Relation.ReflTransGen (Step ruler rules)

section Steps

variable {ruler : Geo.Ruler} {t t' : Traffic}

theorem Step.mono {rules rules' : Rules} (step : Step ruler rules t t')
    (start : ∀ t c, rules.mayStart t c → rules'.mayStart t c)
    (fail : rules.mayFail → rules'.mayFail) : Step ruler rules' t t' := by
  cases step with
  | starts c allowed => exact .starts c (start t c allowed)
  | serves aloft served => exact .serves aloft served
  | refuses e aloft allowed => exact .refuses e aloft (fail allowed)
  | drops aloft allowed => exact .drops aloft (fail allowed)

theorem Reaches.mono {rules rules' : Rules} (reaches : Reaches ruler rules t t')
    (start : ∀ t c, rules.mayStart t c → rules'.mayStart t c)
    (fail : rules.mayFail → rules'.mayFail) : Reaches ruler rules' t t' := by
  induction reaches with
  | refl => exact .refl
  | tail _ step ih => exact ih.tail (step.mono start fail)

theorem Reaches.to_any {rules : Rules} (reaches : Reaches ruler rules t t') :
    Reaches ruler .any t t' :=
  reaches.mono (fun _ _ _ => trivial) fun _ => trivial

end Steps

section Flights

variable {ruler : Geo.Ruler} {t : Traffic} {i j : CallId} {c : Call} {f : Flight}

theorem flight_launch (found : (t.launch ruler c).flights[i]? = some f) :
    t.flights[i]? = some f ∨ (i = t.flights.length ∧ f = ⟨c, c.program ruler⟩) := by
  rw [launch, List.getElem?_append] at found
  split at found
  · exact Or.inl found
  · next late =>
    right
    rw [List.getElem?_singleton] at found
    split at found
    · next zero =>
      have here := Nat.le_antisymm (Nat.sub_eq_zero_iff_le.1 zero) (Nat.not_lt.1 late)
      exact ⟨here, (Option.some.inj found).symm⟩
    · simp at found

theorem flight_proceed {p q : Program Call.Result} {x : Exchange} {s : Store}
    (aloft : t.flights[i]? = some ⟨c, q⟩) (found : (t.proceed i x p s).flights[j]? = some f) :
    (j = i ∧ f = ⟨c, p⟩) ∨ (j ≠ i ∧ t.flights[j]? = some f) := by
  rw [proceed, List.getElem?_modify] at found
  by_cases same : i = j
  · left
    subst same
    simp only [aloft, if_true, Option.map_eq_map, Option.map_some, Option.some.injEq] at found
    exact ⟨rfl, found.symm⟩
  · right
    simp only [same, if_false, Option.map_eq_map, Option.map_id_fun', id_eq] at found
    exact ⟨Ne.symm same, found⟩

theorem flight_drop (found : (t.drop i).flights[j]? = some f) (running : f.rest.isRunning) :
    j ≠ i ∧ t.flights[j]? = some f := by
  rw [drop, List.getElem?_modify] at found
  by_cases same : i = j
  · simp only [same, if_true, Option.map_eq_map, Option.map_eq_some_iff] at found
    obtain ⟨g, _, rfl⟩ := found
    simp [Program.isRunning] at running
  · simp only [same, if_false, Option.map_eq_map, Option.map_id_fun', id_eq] at found
    exact ⟨Ne.symm same, found⟩

theorem flight_proceed_self {p q : Program Call.Result} (x : Exchange) (s : Store)
    (aloft : t.flights[i]? = some ⟨c, q⟩) :
    (t.proceed i x p s).flights[i]? = some ⟨c, p⟩ := by
  rw [proceed, List.getElem?_modify, aloft]
  simp

theorem flight_proceed_of_ne (ne : j ≠ i) (x : Exchange) (p : Program Call.Result) (s : Store) :
    (t.proceed i x p s).flights[j]? = t.flights[j]? := by
  rw [proceed, List.getElem?_modify]
  simp [Ne.symm ne]

@[simp] theorem said_launch (c : Call) (i : CallId) : (t.launch ruler c).said i = t.said i := rfl

@[simp] theorem said_drop (i j : CallId) : (t.drop j).said i = t.said i := rfl

theorem said_proceed_self (i : CallId) (x : Exchange) (p : Program Call.Result) (s : Store) :
    (t.proceed i x p s).said i = t.said i ++ [x] := by
  simp [said, proceed]

theorem said_proceed_of_ne (ne : j ≠ i) (x : Exchange) (p : Program Call.Result) (s : Store) :
    (t.proceed i x p s).said j = t.said j := by
  simp [said, proceed, Ne.symm ne]

theorem stance_proceed_self (i : CallId) (c : Call) (x : Exchange) (p : Program Call.Result)
    (s : Store) :
    (t.proceed i x p s).stance i c = c.after (t.stance i c) x.request x.reply := by
  rw [stance, said_proceed_self, Protocol.after_append_singleton]
  rfl

theorem stance_proceed_of_ne (ne : j ≠ i) (c : Call) (x : Exchange) (p : Program Call.Result)
    (s : Store) : (t.proceed i x p s).stance j c = t.stance j c := by
  rw [stance, said_proceed_of_ne ne, stance]

def Made (t : Traffic) (i : CallId) (c : Call) : Prop := ∃ p, t.flights[i]? = some ⟨c, p⟩

def Wrote (t : Traffic) (i : CallId) (e : Event) : Prop :=
  (i, ⟨.appendEvent e.attempt e.happening, .ok e⟩) ∈ t.history

theorem mem_history_proceed {entry : CallId × Exchange} {x : Exchange}
    {p : Program Call.Result} {s : Store} :
    entry ∈ (t.proceed i x p s).history ↔ entry ∈ t.history ∨ entry = (i, x) := by
  simp [proceed]

theorem Wrote.proceed {e : Event} (wrote : t.Wrote j e) (i : CallId) (x : Exchange)
    (p : Program Call.Result) (s : Store) : (t.proceed i x p s).Wrote j e :=
  mem_history_proceed.2 (Or.inl wrote)

theorem wrote_proceed_self {e : Event} {id : AttemptId} (about : e.attempt = id)
    (p : Program Call.Result) (s : Store) :
    (t.proceed i ⟨.appendEvent id e.happening, .ok e⟩ p s).Wrote i e := by
  subst about
  exact mem_history_proceed.2 (Or.inr rfl)

theorem Made.launch (made : t.Made i c) (ruler : Geo.Ruler) (d : Call) :
    (t.launch ruler d).Made i c := by
  obtain ⟨p, found⟩ := made
  refine ⟨p, ?_⟩
  obtain ⟨lt, _⟩ := List.getElem?_eq_some_iff.1 found
  rw [Traffic.launch, List.getElem?_append_left lt, found]

theorem Made.modify {p : Program Call.Result} (made : t.Made i c) :
    ∃ q, (t.flights.modify j fun f => { f with rest := p })[i]? = some ⟨c, q⟩ := by
  obtain ⟨q, found⟩ := made
  rw [List.getElem?_modify, found]
  by_cases same : j = i
  · exact ⟨p, by simp [same]⟩
  · exact ⟨q, by simp [same]⟩

theorem Made.proceed (made : t.Made i c) (j : CallId) (x : Exchange) (p : Program Call.Result)
    (s : Store) : (t.proceed j x p s).Made i c := made.modify

theorem Made.drop (made : t.Made i c) (j : CallId) : (t.drop j).Made i c := made.modify

end Flights

section Running

variable {ruler : Geo.Ruler} {t : Traffic} {i j : CallId} {c d : Call} {st : Stance}

theorem Runs.unique {st' : Stance} (runs : t.Runs i c st) (runs' : t.Runs i d st') :
    c = d ∧ st = st' := by
  obtain ⟨⟨r, k, found⟩, stands⟩ := runs
  obtain ⟨⟨r', k', found'⟩, stands'⟩ := runs'
  rw [found] at found'
  have same : c = d := congrArg Flight.call (Option.some.inj found')
  subst same
  exact ⟨rfl, stands.symm.trans stands'⟩

theorem Runs.made (runs : t.Runs i c st) : t.Made i c := by
  obtain ⟨⟨r, k, found⟩, _⟩ := runs
  exact ⟨_, found⟩

theorem not_runs_of_isQuiet (quiet : t.isQuiet) : ¬t.Runs i c st := by
  intro runs
  obtain ⟨r, k, found⟩ := runs.aloft
  have stopped := List.all_eq_true.1 quiet _ (List.mem_of_getElem? found)
  simp [Program.isRunning] at stopped

theorem runs_drop (runs : (t.drop j).Runs i c st) : i ≠ j ∧ t.Runs i c st := by
  obtain ⟨⟨r, k, found⟩, stands⟩ := runs
  obtain ⟨ne, found⟩ := flight_drop found rfl
  exact ⟨ne, ⟨r, k, found⟩, stands⟩

theorem runs_proceed {x : Exchange} {p : Program Call.Result} {s : Store} {st' : Stance}
    (before : t.Runs i c st) (after : (t.proceed i x p s).Runs j d st') :
    (j = i ∧ d = c ∧ st' = c.after st x.request x.reply) ∨ (j ≠ i ∧ t.Runs j d st') := by
  obtain ⟨⟨r, k, aloft⟩, stood⟩ := before
  obtain ⟨⟨r', k', found⟩, stands⟩ := after
  rcases flight_proceed aloft found with ⟨rfl, same⟩ | ⟨ne, found⟩
  · left
    obtain ⟨rfl, rfl⟩ := Flight.mk.inj same
    rw [stance_proceed_self, stood] at stands
    exact ⟨rfl, rfl, stands.symm⟩
  · right
    rw [stance_proceed_of_ne ne] at stands
    exact ⟨ne, ⟨r', k', found⟩, stands⟩

theorem Runs.proceed (runs : t.Runs j c st) (ne : j ≠ i) (x : Exchange)
    (p : Program Call.Result) (s : Store) : (t.proceed i x p s).Runs j c st := by
  obtain ⟨⟨r, k, found⟩, stands⟩ := runs
  refine ⟨⟨r, k, ?_⟩, ?_⟩
  · rw [flight_proceed_of_ne ne, found]
  · rw [stance_proceed_of_ne ne, stands]

theorem Runs.proceed_self (runs : t.Runs i c st) (x : Exchange) {p : Program Call.Result}
    (s : Store) (running : p.isRunning) :
    (t.proceed i x p s).Runs i c (c.after st x.request x.reply) := by
  obtain ⟨⟨r, k, found⟩, stands⟩ := runs
  cases p with
  | done _ => simp [Program.isRunning] at running
  | fail _ => simp [Program.isRunning] at running
  | call r' k' =>
    refine ⟨⟨r', k', flight_proceed_self x s found⟩, ?_⟩
    rw [stance_proceed_self, stands]

theorem Runs.launch (runs : t.Runs i c st) (ruler : Geo.Ruler) (d : Call) :
    (t.launch ruler d).Runs i c st := by
  obtain ⟨⟨r, k, found⟩, stands⟩ := runs
  refine ⟨⟨r, k, ?_⟩, stands⟩
  obtain ⟨lt, _⟩ := List.getElem?_eq_some_iff.1 found
  rw [Traffic.launch, List.getElem?_append_left lt, found]

end Running

end Traffic

section Honest

theorem Store.Serves.honest {s s' : Store} {r : Request} {reply : r.Reply}
    (served : s.Serves r reply s') : r.Honest reply := by
  cases served
  case profile u =>
    cases found : s.profileOf? u with
    | none => trivial
    | some p =>
      have same := List.find?_some found
      exact eq_of_beq same
  all_goals trivial

theorem Request.honest_refusal (r : Request) (e : StoreError) : r.Honest (r.refusal e) := by
  cases r <;> trivial

end Honest

namespace Traffic

/-- Every call in flight is made by a user other than zero and keeps its protocol from where it
stands. -/
structure Abides (t : Traffic) : Prop where
  keeps : ∀ {i : CallId} {c : Call} {p : Program Call.Result}, t.flights[i]? = some ⟨c, p⟩ →
    p.isRunning → p.Keeps c.protocol (Call.stays .free) (t.stance i c)
  somebody : ∀ {i : CallId} {c : Call} {p : Program Call.Result}, t.flights[i]? = some ⟨c, p⟩ →
    p.isRunning → c.user ≠ 0
  started : ∀ entry ∈ t.history, entry.1 < t.flights.length

variable {ruler : Geo.Ruler} {rules : Rules} {t t' : Traffic} {i : CallId} {c : Call}

theorem abides_opening (s : Store) : (opening s).Abides where
  keeps found := by simp [opening] at found
  somebody found := by simp [opening] at found
  started entry mem := by simp [opening] at mem

namespace Abides

theorem stance_eq_free (abides : t.Abides) (late : t.flights.length ≤ i) (c : Call) :
    t.stance i c = .free := by
  have silent : t.said i = [] := by
    apply List.filterMap_eq_nil_iff.2
    intro entry mem
    have started := abides.started entry mem
    rw [if_neg (Nat.ne_of_lt (Nat.lt_of_lt_of_le started late))]
  rw [stance, silent, Protocol.after_nil]

theorem runs_launch (abides : t.Abides) {d : Call} {st : Stance}
    (runs : (t.launch ruler c).Runs i d st) :
    t.Runs i d st ∨ (i = t.flights.length ∧ d = c ∧ st = .free) := by
  obtain ⟨⟨r, k, found⟩, stands⟩ := runs
  rcases flight_launch found with found | ⟨rfl, same⟩
  · exact Or.inl ⟨⟨r, k, found⟩, stands⟩
  · right
    obtain ⟨rfl, _⟩ := Flight.mk.inj same
    exact ⟨rfl, rfl, stands.symm.trans (abides.stance_eq_free (Nat.le_refl _) d)⟩

theorem launch (abides : t.Abides) (c : Call) : (t.launch ruler c).Abides where
  keeps {i d p} found running := by
    rcases flight_launch found with found | ⟨rfl, same⟩
    · exact abides.keeps found running
    · obtain ⟨rfl, rfl⟩ := Flight.mk.inj same
      have free : (t.launch ruler d).stance t.flights.length d = .free :=
        abides.stance_eq_free (Nat.le_refl _) d
      rw [free]
      exact d.program_keeps ruler
  somebody {i d p} found running := by
    rcases flight_launch found with found | ⟨rfl, same⟩
    · exact abides.somebody found running
    · obtain ⟨rfl, rfl⟩ := Flight.mk.inj same
      intro nobody
      rw [Call.program_of_user_zero nobody] at running
      simp [Program.isRunning] at running
  started entry mem := by
    simp only [Traffic.launch, List.length_append, List.length_singleton]
    exact Nat.lt_succ_of_lt (abides.started entry mem)

theorem proceed (abides : t.Abides) {r : Request} {k : r.Reply → Program Call.Result}
    {reply : r.Reply} (aloft : t.flights[i]? = some ⟨c, .call r k⟩) (honest : r.Honest reply)
    (s : Store) : (t.proceed i ⟨r, reply⟩ (k reply) s).Abides where
  keeps {j d p} found running := by
    rcases flight_proceed aloft found with ⟨rfl, same⟩ | ⟨ne, found⟩
    · obtain ⟨rfl, rfl⟩ := Flight.mk.inj same
      rw [stance_proceed_self]
      exact (abides.keeps aloft rfl).2 reply honest
    · rw [stance_proceed_of_ne ne]
      exact abides.keeps found running
  somebody {j d p} found running := by
    rcases flight_proceed aloft found with ⟨rfl, same⟩ | ⟨ne, found⟩
    · obtain ⟨rfl, rfl⟩ := Flight.mk.inj same
      exact abides.somebody aloft rfl
    · exact abides.somebody found running
  started entry mem := by
    simp only [Traffic.proceed, List.length_modify, List.mem_append, List.mem_singleton] at mem ⊢
    rcases mem with mem | rfl
    · exact abides.started entry mem
    · exact (List.getElem?_eq_some_iff.1 aloft).1

theorem drop (abides : t.Abides) (i : CallId) : (t.drop i).Abides where
  keeps {j d p} found running := abides.keeps (flight_drop found running).2 running
  somebody {j d p} found running := abides.somebody (flight_drop found running).2 running
  started entry mem := by
    simp only [Traffic.drop, List.length_modify]
    exact abides.started entry mem

theorem step (abides : t.Abides) (step : Step ruler rules t t') : t'.Abides := by
  cases step with
  | starts c _ => exact abides.launch c
  | serves aloft served => exact abides.proceed aloft served.honest _
  | refuses e aloft _ => exact abides.proceed aloft (Request.honest_refusal _ e) _
  | drops aloft _ => exact abides.drop _

end Abides

theorem Reaches.abides {s : Store} (reaches : Reaches ruler rules (opening s) t) : t.Abides := by
  induction reaches with
  | refl => exact abides_opening s
  | tail _ step ih => exact ih.step step

end Traffic
end Matchmaking
