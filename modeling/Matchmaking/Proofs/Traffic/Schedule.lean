import Matchmaking.Proofs.Traffic.Basic
/-! Schedules: traffic computed over the store in memory, one move after the other. Whatever a
schedule computes can be reached by steps, so a run is shown to exist by evaluating it. -/
namespace Matchmaking
namespace Traffic

inductive Move
  | start (c : Call)
  | turn (i : CallId)
  | drop (i : CallId)

/-- Where, and under which rules, a schedule is carried out. -/
structure Scene where
  ruler : Geo.Ruler
  around : Surroundings
  mayStart : Traffic → Call → Bool
  mayFail : Bool

namespace Scene

def rules (scene : Scene) : Rules := ⟨fun t c => scene.mayStart t c, scene.mayFail⟩

/-- A move that is not allowed, or is one of a call that is not in flight, changes nothing. -/
def play (scene : Scene) (t : Traffic) : Move → Traffic
  | .start c => if scene.mayStart t c then t.launch scene.ruler c else t
  | .turn i =>
    match t.flights[i]? with
    | some ⟨_, .call r k⟩ =>
      let (reply, s) := t.store.serve scene.around r
      t.proceed i ⟨r, reply⟩ (k reply) s
    | _ => t
  | .drop i =>
    match t.flights[i]? with
    | some ⟨_, .call _ _⟩ => if scene.mayFail then t.drop i else t
    | _ => t

def perform (scene : Scene) (t : Traffic) (moves : List Move) : Traffic := moves.foldl scene.play t

variable {scene : Scene} {t : Traffic}

theorem reaches_play (numbered : t.store.IsNumbered) (m : Move) :
    Reaches scene.ruler scene.rules t (scene.play t m) ∧ (scene.play t m).store.IsNumbered := by
  cases m with
  | start c =>
    rw [play]
    split
    · next allowed => exact ⟨.single (.starts c allowed), numbered⟩
    · exact ⟨.refl, numbered⟩
  | turn i =>
    rw [play]
    split
    · next c r k aloft =>
      have served := Store.serves_serve numbered scene.around r
      exact ⟨.single (.serves aloft served), numbered.serve scene.around r⟩
    · exact ⟨.refl, numbered⟩
  | drop i =>
    rw [play]
    split
    · next aloft =>
      split
      · next allowed => exact ⟨.single (.drops aloft allowed), numbered⟩
      · exact ⟨.refl, numbered⟩
    · exact ⟨.refl, numbered⟩

theorem reaches_perform (scene : Scene) (numbered : t.store.IsNumbered) (moves : List Move) :
    Reaches scene.ruler scene.rules t (scene.perform t moves) := by
  induction moves generalizing t with
  | nil => exact .refl
  | cons m rest ih =>
    obtain ⟨reaches, numbered⟩ := reaches_play numbered m
    exact reaches.trans (ih numbered)

theorem isNumbered_perform (scene : Scene) (numbered : t.store.IsNumbered) (moves : List Move) :
    (scene.perform t moves).store.IsNumbered := by
  induction moves generalizing t with
  | nil => exact numbered
  | cons m rest ih => exact ih (reaches_play numbered m).2

end Scene

def isIdle (t : Traffic) (user : UserId) : Bool :=
  t.flights.all fun f => !f.rest.isRunning || f.call.user != user

theorem Runs.user_ne {t : Traffic} {i : CallId} {c : Call} {st : Stance} {user : UserId}
    (runs : t.Runs i c st) (idle : t.isIdle user) : c.user ≠ user := by
  obtain ⟨r, k, found⟩ := runs.aloft
  have apart := List.all_eq_true.1 idle _ (List.mem_of_getElem? found)
  simpa [Program.isRunning] using apart

end Traffic

/-- Complete records of some people at one place, who all suit each other. -/
def Store.village (users : List UserId) : Store where
  profiles := users.map fun userId =>
    { userId, name := "", gender := some .male, age := 30, latitude := some 0, longitude := some 0,
      locationName := "x" }
  preferences := users.map fun userId =>
    { userId, latitude := some 0, longitude := some 0, radiusKm := 1 }

theorem Store.isFresh_village (users : List UserId) : (village users).IsFresh :=
  ⟨rfl, rfl, rfl, rfl⟩

theorem Store.isNumbered_village (users : List UserId) : (village users).IsNumbered where
  nodup := List.nodup_nil
  id_le a mem := by simp [village] at mem
  number_le e mem := by simp [village] at mem

namespace Traffic

def Scene.village (mayStart : Traffic → Call → Bool) (mayFail : Bool) : Scene where
  ruler _ _ := some 0
  around := { photoBase := "" }
  mayStart
  mayFail

def turns (i : CallId) : List Move := List.replicate 20 (.turn i)

end Traffic
end Matchmaking
