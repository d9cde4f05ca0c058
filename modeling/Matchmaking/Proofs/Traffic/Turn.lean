import Matchmaking.Proofs.Engine.Act
import Matchmaking.Proofs.Traffic.Basic
/-! Steps read as exchanges of single calls: every step starts a call, drops one, or is one act of
one call while all others stand still. -/
namespace Matchmaking
namespace Traffic

structure Turn (faulty : Prop) (t : Traffic) (i : CallId) (c : Call) (st : Stance) (x : Exchange)
    (st' : Stance) (s : Store) (p : Program Call.Result) : Prop where
  runs : t.Runs i c st
  acts : Acts faulty c t.store st x st' s
  led : c.after st x.request x.reply = st'
  going : p.isRunning ∨ Call.settles st'

namespace Turn

variable {faulty : Prop} {t : Traffic} {i j : CallId} {c d : Call} {st st' sd : Stance}
  {x : Exchange} {s : Store} {p : Program Call.Result}

theorem before (turn : t.Turn faulty i c st x st' s p) (after : (t.proceed i x p s).Runs j d sd) :
    (j = i ∧ d = c ∧ sd = st') ∨ (j ≠ i ∧ t.Runs j d sd) := by
  have split := runs_proceed turn.runs after
  rwa [turn.led] at split

theorem goes_on (turn : t.Turn faulty i c st x st' s p) (owing : ¬Call.settles st') :
    (t.proceed i x p s).Runs i c st' := by
  have running := turn.going.resolve_right owing
  have runs := turn.runs.proceed_self x s running
  rwa [turn.led] at runs

theorem ne_of_stance_ne (turn : t.Turn faulty i c st x st' s p) (runs : t.Runs j d sd)
    (elsewhere : sd ≠ st) : j ≠ i := by
  intro here
  rw [here] at runs
  exact elsewhere (runs.unique turn.runs).2

end Turn

variable {ruler : Geo.Ruler} {rules : Rules} {t t' : Traffic}

/-- Every step is of one of three kinds. -/
inductive Shift (ruler : Geo.Ruler) (rules : Rules) (t : Traffic) : Traffic → Prop
  | starts (c : Call) (allowed : rules.mayStart t c) : Shift ruler rules t (t.launch ruler c)
  | turns {i : CallId} {c : Call} {st st' : Stance} {x : Exchange} {s : Store}
      {p : Program Call.Result} (turn : t.Turn rules.mayFail i c st x st' s p) :
      Shift ruler rules t (t.proceed i x p s)
  | drops (i : CallId) (allowed : rules.mayFail) : Shift ruler rules t (t.drop i)

theorem isRunning_or_settles {c : Call} {st : Stance} {p : Program Call.Result}
    (keeps : p.Keeps c.protocol (Call.stays .free) st) : p.isRunning ∨ Call.settles st := by
  cases p with
  | done a =>
    right
    have free : st = .free := keeps
    rw [free]
    trivial
  | fail e => exact Or.inr keeps
  | call r k => exact Or.inl rfl

namespace Abides

section Turns

variable {i : CallId} {c : Call} {r : Request} {k : r.Reply → Program Call.Result}
  {reply : r.Reply} {s : Store} {faulty : Prop}

theorem turn_of_serves (abides : t.Abides) (aloft : t.flights[i]? = some ⟨c, .call r k⟩)
    (served : t.store.Serves r reply s) :
    t.Turn faulty i c (t.stance i c) ⟨r, reply⟩ (c.after (t.stance i c) r reply) s (k reply) := by
  have keeps := abides.keeps aloft rfl
  exact ⟨⟨⟨_, _, aloft⟩, rfl⟩, .of_serves keeps.1 served, rfl,
    isRunning_or_settles (keeps.2 _ served.honest)⟩

theorem turn_of_refuses (abides : t.Abides) (aloft : t.flights[i]? = some ⟨c, .call r k⟩)
    (e : StoreError) (allowed : faulty) :
    t.Turn faulty i c (t.stance i c) ⟨r, r.refusal e⟩ (c.after (t.stance i c) r (r.refusal e))
      t.store (k (r.refusal e)) := by
  have keeps := abides.keeps aloft rfl
  exact ⟨⟨⟨_, _, aloft⟩, rfl⟩, .of_refusal keeps.1 e allowed, rfl,
    isRunning_or_settles (keeps.2 _ (Request.honest_refusal _ e))⟩

end Turns

theorem shift (abides : t.Abides) (step : Step ruler rules t t') : Shift ruler rules t t' := by
  cases step with
  | starts c allowed => exact .starts c allowed
  | serves aloft served => exact .turns (abides.turn_of_serves aloft served)
  | refuses e aloft allowed => exact .turns (abides.turn_of_refuses aloft e allowed)
  | drops aloft allowed => exact .drops _ allowed

end Abides

end Traffic
end Matchmaking
