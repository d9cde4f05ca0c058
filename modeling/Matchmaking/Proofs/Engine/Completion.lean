import Matchmaking.Proofs.Engine.Conduct
import Matchmaking.Proofs.Engine.Keeper
import Matchmaking.Proofs.Store.Contract
/-! Calls that run to their end while no collaborator fails: every request is served by the store of
that moment, and every photo has a link. -/
namespace Matchmaking

def Request.IsLinked (link : String → String) : (r : Request) → r.Reply → Prop
  | photoLink key, reply => reply = .ok (link key)
  | _, _ => True

namespace Store

variable {link : String → String} {α : Type} {s s' : Store}

/-- A program with the result that it ends with and the store that it leaves. -/
inductive Yields (link : String → String) {α : Type} :
    Store → Program α → Except MatchError α → Store → Prop
  | done (s : Store) (a : α) : Yields link s (.done a) (.ok a) s
  | fail (s : Store) (e : MatchError) : Yields link s (.fail e) (.error e) s
  | call {s s₁ s' : Store} {r : Request} {k : r.Reply → Program α} {reply : r.Reply}
      {result : Except MatchError α} (served : s.Serves r reply s₁)
      (linked : r.IsLinked link reply) (rest : Yields link s₁ (k reply) result s') :
      Yields link s (.call r k) result s'

def serving (link : String → String) : Keeper Store := fun s r reply s' =>
  s.Serves r reply s' ∧ r.IsLinked link reply

theorem runs_serving {p : Program α} {result : Except MatchError α} :
    (serving link).Runs s p result s' ↔ s.Yields link p result s' := by
  constructor
  · intro runs
    induction runs with
    | done s a => exact .done s a
    | fail s e => exact .fail s e
    | call served _ ih => exact .call served.1 served.2 ih
  · intro yields
    induction yields with
    | done s a => exact .done s a
    | fail s e => exact .fail s e
    | call served linked _ ih => exact .call ⟨served, linked⟩ ih

def reading? (link : String → String) (s : Store) : (r : Request) → Option r.Reply
  | .profile u => some (.ok (s.profileOf? u))
  | .preferences u => some (.ok (s.preferencesOf? u))
  | .lastEvent id => some (.ok (s.lastEvent? id))
  | .photos u => some (.ok (s.photosOf u))
  | .photoLink key => some (.ok (link key))
  | _ => none

section Showing

def shown (link : String → String) (s : Store) (user : UserId) : Except MatchError Showcase :=
  match s.profileOf? user with
  | none => .error (.internal "can't get profile" (.missingProfile user))
  | some profile => .ok ⟨profile, (s.photosOf user).map fun key => ⟨key, link key⟩⟩

def noticeOf (link : String → String) (s : Store) (user : UserId) : Notice :=
  ⟨(s.profileOf? user).elim "" Profile.name, (s.photosOf user).head?.elim "" link⟩

def noticeTo (link : String → String) (s : Store) (a : Attempt) : Role → UserId × Notice
  | .first => (a.first, s.noticeOf link a.second)
  | .second => (a.second, s.noticeOf link a.first)

theorem SamePeople.shown (people : s.SamePeople s') (link : String → String) (user : UserId) :
    s'.shown link user = s.shown link user := by
  rw [Store.shown, profileOf?, people.profiles, photosOf, people.photos, Store.shown, profileOf?,
    photosOf]

theorem SamePeople.noticeOf (people : s.SamePeople s') (link : String → String) (user : UserId) :
    s'.noticeOf link user = s.noticeOf link user := by
  rw [Store.noticeOf, profileOf?, people.profiles, photosOf, people.photos, Store.noticeOf,
    profileOf?, photosOf]

end Showing

def IsOther (s : Store) (user v : UserId) : Prop := v ≠ user ∧ (s.profileOf? v).isSome

section Sequences

variable {ruler : Geo.Ruler} {calls : List Call}

/-- These calls are made, one after the other and each to its end, and lead to that store. -/
inductive Undergoes (link : String → String) (ruler : Geo.Ruler) (s : Store) :
    List Call → Store → Prop
  | none : Undergoes link ruler s [] s
  | next {calls : List Call} {c : Call} {result : Except MatchError Call.Result} {s₁ s' : Store}
      (before : Undergoes link ruler s calls s₁)
      (yields : s₁.Yields link (c.program ruler) result s') :
      Undergoes link ruler s (calls ++ [c]) s'

theorem Undergoes.keeps {P : Store → Prop} (undergoes : s.Undergoes link ruler calls s')
    (start : P s) (keep : ∀ {c : Call} {result : Except MatchError Call.Result} {s₁ s₂ : Store},
      P s₁ → s₁.Yields link (c.program ruler) result s₂ → P s₂) : P s' := by
  induction undergoes with
  | none => exact start
  | next before yields ih => exact keep ih yields

def answer (link : String → String) (around : Surroundings) (s : Store) :
    (r : Request) → r.Reply × Store
  | .photoLink key => (.ok (link key), s)
  | r => s.serve around r

def complete (link : String → String) (around : Surroundings) (s : Store) :
    Program α → Except MatchError α × Store
  | .done a => (.ok a, s)
  | .fail e => (.error e, s)
  | .call r k =>
    let (reply, s) := s.answer link around r
    s.complete link around (k reply)

def completeAll (link : String → String) (around : Surroundings) (ruler : Geo.Ruler) (s : Store)
    (calls : List Call) : Store :=
  calls.foldl (fun s c => (s.complete link around (c.program ruler)).2) s

theorem serves_answer (link : String → String) (numbered : s.IsNumbered) (around : Surroundings)
    (r : Request) :
    s.Serves r (s.answer link around r).1 (s.answer link around r).2 ∧
      r.IsLinked link (s.answer link around r).1 ∧ (s.answer link around r).2.IsNumbered := by
  cases r with
  | photoLink key => exact ⟨.photoLink key _, rfl, numbered⟩
  | _ => exact ⟨serves_serve numbered around _, trivial, numbered.serve around _⟩

theorem yields_complete (numbered : s.IsNumbered) (around : Surroundings) (p : Program α) :
    s.Yields link p (s.complete link around p).1 (s.complete link around p).2 ∧
      (s.complete link around p).2.IsNumbered := by
  induction p generalizing s with
  | done a => exact ⟨.done s a, numbered⟩
  | fail e => exact ⟨.fail s e, numbered⟩
  | call r k ih =>
    obtain ⟨served, linked, numbered⟩ := serves_answer link numbered around r
    obtain ⟨yields, numbered⟩ := ih _ numbered
    exact ⟨.call served linked yields, numbered⟩

theorem Undergoes.completeAll {s₁ : Store} (undergoes : s.Undergoes link ruler calls s₁)
    (numbered : s₁.IsNumbered) (around : Surroundings) (more : List Call) :
    s.Undergoes link ruler (calls ++ more) (s₁.completeAll link around ruler more) := by
  induction more generalizing calls s₁ with
  | nil =>
    rw [List.append_nil]
    exact undergoes
  | cons c rest ih =>
    obtain ⟨yields, numbered⟩ := yields_complete numbered around (c.program ruler)
    have after := ih (.next undergoes yields) numbered
    rw [List.append_assoc] at after
    exact after

end Sequences

end Store
end Matchmaking
