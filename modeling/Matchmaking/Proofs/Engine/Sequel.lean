import Matchmaking.Proofs.Engine.Growth
/-! What a call comes to write goes on from the last event of that moment. It need not follow it: an
answer of the first person is also written of an attempt of which nothing has been told yet. -/
namespace Matchmaking

def Stage.rank : Stage → Nat
  | awaitingFirst => 0
  | awaitingSecond => 1
  | resolved => 2

namespace Happening

def rank (h : Happening) : Nat := (Stage.after (some h)).rank

theorem isTerminal_of_rank_lt {h k : Happening} (lower : h.rank < k.rank) :
    h.isTerminal = false := by
  cases h <;> first | rfl | (cases k <;> exact absurd lower (by decide))

/-- The event follows the last one, or is the first one told, an answer of the first person. -/
def GoesOn (last : Option Happening) (h : Happening) : Prop :=
  follows last h = true ∨ (last = none ∧ ∃ verdict, h = swipe .first verdict)

variable {last : Option Happening} {h : Happening}

theorem goesOn_swipe {side : Role} (turn : (Stage.after last).awaiting = some side)
    (verdict : Verdict) : GoesOn last (swipe side verdict) := by
  cases last with
  | none =>
    cases turn
    exact Or.inr ⟨rfl, verdict, rfl⟩
  | some k => exact Or.inl (follows_swipe verdict (Option.some_ne_none k) turn)

theorem GoesOn.follows_iff (goesOn : GoesOn last h) :
    follows last h = true ↔ ¬(last = none ∧ ∃ verdict, h = swipe .first verdict) := by
  constructor
  · intro valid untold
    obtain ⟨rfl, verdict, rfl⟩ := untold
    cases verdict <;> cases valid
  · exact goesOn.resolve_right

theorem GoesOn.rank_le (goesOn : GoesOn last h) : (Stage.after last).rank ≤ h.rank := by
  rcases goesOn with valid | ⟨rfl, _⟩
  · rcases last with _ | last
    · exact Nat.zero_le _
    · cases last <;> cases h <;> first | decide | cases valid
  · exact Nat.zero_le _

end Happening

namespace Acts

variable {faulty : Prop} {c : Call} {s s' : Store} {st st' : Stance} {x : Exchange}

theorem goesOn_of_writing (acts : Acts faulty c s st x st' s') {a : Attempt} {h : Happening}
    (known : ∀ e ∈ s.log, ∃ b ∈ s.attempts, b.id = e.attempt) (led : st' = .writing a h) :
    Happening.GoesOn (s'.lastHappening? a.id) h := by
  cases acts with
  | looks idle =>
    rw [led] at idle
    cases idle
  | @lists as => cases as <;> cases led
  | opens clock first second pending free fresh =>
    cases led
    rw [Store.lastHappening?_congr (Store.log_withAttempt a clock), Store.lastHappening?,
      Store.lastEvent?, Store.eventsOf_of_fresh known fresh]
    exact Or.inl rfl
  | @answers d side verdict _ turn =>
    cases led
    exact Happening.goesOn_swipe turn verdict
  | @resumes d rest =>
    cases last : s.lastHappening? d.id with
    | none =>
      rw [last] at led
      cases led
      rw [last]
      exact Or.inl rfl
    | some k =>
      rw [last] at led
      cases k <;> cases rest <;> cases led <;> rw [last] <;> exact Or.inl rfl
  | @shows d _ liked =>
    cases led
    rw [liked]
    exact Or.inl rfl
  | @writes d e clock about fresh =>
    have latest : (s.withEvent e clock).lastHappening? d.id = some e.happening := by
      rw [← about, Store.lastHappening?_withEvent_self]
    generalize e.happening = k at led latest
    cases k <;> cases led <;> rw [latest] <;> exact Or.inl rfl
  | @moves d b state => cases state <;> cases led
  | @tells d side rest => cases rest <;> cases led
  | @misses d kind side rest => cases rest <;> cases led
  | _ => cases led

theorem writing_of_append (acts : Acts faulty c s st x st' s') {id : AttemptId} {h : Happening}
    {e : Event} (asked : x = ⟨.appendEvent id h, .ok e⟩) : ∃ a, st = .writing a h ∧ a.id = id := by
  have loud : x.succeeds = true := by
    rw [asked]
    rfl
  cases acts with
  | writes =>
    cases asked
    exact ⟨_, rfl, rfl⟩
  | moves => cases asked
  | chats => cases asked
  | _ => contradiction

end Acts
end Matchmaking
