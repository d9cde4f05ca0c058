import Matchmaking.Proofs.Traffic.Consent
/-! Chats and notices of matches are booked to attempts. The one call that moves an attempt to a
match opens its chat and tells each side of it, so nothing is booked twice. -/
namespace Matchmaking

def Attempt.people (a : Attempt) : UserId × UserId := (a.first, a.second)

def Chat.people (c : Chat) : UserId × UserId := (c.first, c.second)

def Store.receivers (s : Store) (kind : NoticeKind) : List UserId :=
  (s.deliveries.filter fun d => d.kind == kind).map Delivery.receiver

theorem Store.receivers_recordDelivery (s : Store) (d : Delivery) (kind : NoticeKind) :
    (s.recordDelivery d).receivers kind =
      s.receivers kind ++ if d.kind = kind then [d.receiver] else [] := by
  by_cases same : d.kind = kind <;> simp [receivers, recordDelivery, same]

def Stance.won? : Stance → Option Attempt
  | matching a => some a
  | telling a .matched _ _ => some a
  | _ => none

namespace Traffic

/-- The chats are booked to these attempts, and the notices of matches to these sides. -/
structure Ledger (t : Traffic) (as : List Attempt) (told : List (Attempt × Role)) : Prop where
  nodup : as.Nodup
  matched : ∀ a ∈ as, a ∈ t.store.attempts ∧ a.state = .matched
  chats : t.store.chats.map Chat.people = as.map Attempt.people
  told_nodup : told.Nodup
  told_mem : ∀ entry ∈ told, entry.1 ∈ as
  notices : t.store.receivers .matched = told.map fun entry => entry.1.person entry.2
  /-- No two calls deal with one match. -/
  alone : ∀ {i j c d st st' a b}, t.Runs i c st → t.Runs j d st' → st.won? = some a →
    st'.won? = some b → a.id = b.id → i = j
  unopened : ∀ {i c a}, t.Runs i c (.matching a) → ∀ b ∈ as, b.id ≠ a.id
  opened : ∀ {i c a side rest}, t.Runs i c (.telling a .matched side rest) →
    ∃ b ∈ as, b.id = a.id ∧ b.people = a.people
  untold : ∀ {i c a side rest}, t.Runs i c (.telling a .matched side rest) →
    (side :: rest).Nodup ∧ ∀ entry ∈ told, entry.1.id = a.id → entry.2 ∉ side :: rest

namespace Ledger

variable {ruler : Geo.Ruler} {rules : Rules} {t t' : Traffic} {as : List Attempt}
  {told : List (Attempt × Role)}

theorem opening {s : Store} (fresh : s.IsFresh) : (opening s).Ledger [] [] := by
  have still {i : CallId} {c : Call} {st : Stance} : ¬(Traffic.opening s).Runs i c st :=
    not_runs_of_isQuiet rfl
  exact {
    nodup := List.nodup_nil
    matched := by simp
    chats := by simp [Traffic.opening, fresh.chats]
    told_nodup := List.nodup_nil
    told_mem := by simp
    notices := by simp [Traffic.opening, Store.receivers, fresh.deliveries]
    alone := fun runs => absurd runs still
    unopened := fun runs => absurd runs still
    opened := fun runs => absurd runs still
    untold := fun runs => absurd runs still }

theorem matched_of_grows {s : Store} (ledger : t.Ledger as told) (grows : t.store.Grows s) :
    ∀ a ∈ as, a ∈ s.attempts ∧ a.state = .matched := by
  intro a mem
  obtain ⟨stored, state⟩ := ledger.matched a mem
  have done : ¬a.isPending := by simp [Attempt.isPending, state]
  exact ⟨grows.mem_attempts stored done, state⟩

/-- The ledger stays as it is while no call comes to deal with a match, and nothing is booked. -/
theorem keep (ledger : t.Ledger as told) (grows : t.store.Grows t'.store)
    (chats : t'.store.chats = t.store.chats)
    (notices : t'.store.receivers .matched = t.store.receivers .matched)
    (won : ∀ {i c st a}, t'.Runs i c st → st.won? = some a → t.Runs i c st) :
    t'.Ledger as told where
  nodup := ledger.nodup
  matched := ledger.matched_of_grows grows
  chats := by rw [chats, ledger.chats]
  told_nodup := ledger.told_nodup
  told_mem := ledger.told_mem
  notices := by rw [notices, ledger.notices]
  alone runs runs' deals deals' same :=
    ledger.alone (won runs deals) (won runs' deals') deals deals' same
  unopened runs := ledger.unopened (won runs rfl)
  opened runs := ledger.opened (won runs rfl)
  untold runs := ledger.untold (won runs rfl)

theorem launch (ledger : t.Ledger as told) (sound : t.Sound) (c : Call) :
    (t.launch ruler c).Ledger as told := by
  refine ledger.keep (.refl _) rfl rfl ?_
  intro i d st a runs deals
  rcases sound.abides.runs_launch runs with runs | ⟨_, _, rfl⟩
  · exact runs
  · simp [Stance.won?] at deals

theorem drop (ledger : t.Ledger as told) (i : CallId) : (t.drop i).Ledger as told :=
  ledger.keep (.refl _) rfl rfl fun runs _ => (runs_drop runs).2

section Turning

variable {faulty : Prop} {i : CallId} {c : Call} {st st' : Stance} {x : Exchange} {s : Store}
  {p : Program Call.Result}

theorem pass (ledger : t.Ledger as told) (sound : t.Sound)
    (turn : t.Turn faulty i c st x st' s p) (chats : s.chats = t.store.chats)
    (notices : s.receivers .matched = t.store.receivers .matched)
    (won : st'.won? = none ∨ st' = st) : (t.proceed i x p s).Ledger as told := by
  refine ledger.keep (sound.grows turn) chats notices ?_
  intro j d sd a runs deals
  rcases turn.before runs with ⟨rfl, rfl, rfl⟩ | ⟨_, runs⟩
  · rcases won with lost | rfl
    · simp [lost] at deals
    · exact turn.runs
  · exact runs

theorem move {a b : Attempt} (ledger : t.Ledger as told) (sound : t.Sound)
    (turn : t.Turn faulty i c st x (.matching a) s p) (chats : s.chats = t.store.chats)
    (notices : s.receivers .matched = t.store.receivers .matched) (mem : b ∈ t.store.attempts)
    (same : b.id = a.id) (pending : b.isPending) : (t.proceed i x p s).Ledger as told := by
  have other {d : Attempt} (stored : d ∈ t.store.attempts) (state : d.state = .matched) :
      d.id ≠ a.id := by
    intro equal
    have one := sound.register.unique d stored b mem (equal.trans same.symm)
    rw [← one, Attempt.isPending, state] at pending
    simp at pending
  have apart {j : CallId} {d : Call} {sd : Stance} {b : Attempt} (runs : t.Runs j d sd)
      (deals : sd.won? = some b) : b.id ≠ a.id := by
    have known := sound.known runs
    have found : t.store.IsMatch b := by
      cases sd <;> simp only [Stance.won?, Option.some.injEq, reduceCtorEq] at deals
      case matching => rwa [← deals]
      case telling a kind side rest =>
        cases kind <;> simp only [Option.some.injEq, reduceCtorEq] at deals
        rwa [← deals]
    obtain ⟨b', stored, id, _, _, state⟩ := found
    rw [← id]
    exact other stored state
  exact {
    nodup := ledger.nodup
    matched := ledger.matched_of_grows (sound.grows turn)
    chats := by
      rw [← ledger.chats]
      exact congrArg _ chats
    told_nodup := ledger.told_nodup
    told_mem := ledger.told_mem
    notices := by
      rw [← ledger.notices]
      exact notices
    alone := by
      intro j k d e sd se a' b' runs runs' deals deals' equal
      rcases turn.before runs with ⟨rfl, rfl, rfl⟩ | ⟨_, ran⟩ <;>
        rcases turn.before runs' with ⟨rfl, rfl, rfl⟩ | ⟨_, ran'⟩
      · rfl
      · cases deals
        exact absurd equal.symm (apart ran' deals')
      · cases deals'
        exact absurd equal (apart ran deals)
      · exact ledger.alone ran ran' deals deals' equal
    unopened := by
      intro j d a' runs e booked
      rcases turn.before runs with ⟨_, _, led⟩ | ⟨_, runs⟩
      · cases led
        obtain ⟨stored, state⟩ := ledger.matched e booked
        exact other stored state
      · exact ledger.unopened runs e booked
    opened := by
      intro j d a' side rest runs
      rcases turn.before runs with ⟨_, _, led⟩ | ⟨_, runs⟩
      · cases led
      · exact ledger.opened runs
    untold := by
      intro j d a' side rest runs
      rcases turn.before runs with ⟨_, _, led⟩ | ⟨_, runs⟩
      · cases led
      · exact ledger.untold runs }

theorem alone_of_turn (ledger : t.Ledger as told) (turn : t.Turn faulty i c st x st' s p)
    (won : ∀ {a}, st'.won? = some a → st.won? = some a) {j k : CallId} {d e : Call}
    {sd se : Stance} {a b : Attempt} (runs : (t.proceed i x p s).Runs j d sd)
    (runs' : (t.proceed i x p s).Runs k e se) (deals : sd.won? = some a)
    (deals' : se.won? = some b) (same : a.id = b.id) : j = k := by
  have before {j : CallId} {d : Call} {sd : Stance} {a : Attempt}
      (runs : (t.proceed i x p s).Runs j d sd) (deals : sd.won? = some a) :
      ∃ sd', t.Runs j d sd' ∧ sd'.won? = some a := by
    rcases turn.before runs with ⟨rfl, rfl, rfl⟩ | ⟨_, ran⟩
    · exact ⟨st, turn.runs, won deals⟩
    · exact ⟨sd, ran, deals⟩
  obtain ⟨_, ran, dealt⟩ := before runs deals
  obtain ⟨_, ran', dealt'⟩ := before runs' deals'
  exact ledger.alone ran ran' dealt dealt' same

theorem chat {a : Attempt} {chat : Chat} (ledger : t.Ledger as told) (sound : t.Sound)
    (turn : t.Turn faulty i c (.matching a) x (.telling a .matched .second [.first])
      (t.store.withChat chat) p) (people : chat.people = a.people) :
    ∃ b, (t.proceed i x p (t.store.withChat chat)).Ledger (as ++ [b]) told := by
  obtain ⟨b, stored, id, first, second, state⟩ := sound.known turn.runs
  have same : b.people = a.people := Prod.ext first second
  have unbooked : ∀ d ∈ as, d.id ≠ a.id := ledger.unopened turn.runs
  refine ⟨b, ?_⟩
  exact {
    nodup := by
      refine List.nodup_append.2 ⟨ledger.nodup, List.nodup_singleton b, ?_⟩
      intro d booked e mem equal
      rw [List.mem_singleton.1 mem] at equal
      rw [equal] at booked
      exact unbooked b booked id
    matched := by
      intro d mem
      rcases List.mem_append.1 mem with mem | mem
      · exact ledger.matched d mem
      · rw [List.mem_singleton.1 mem]
        exact ⟨stored, state⟩
    chats := by
      have booked := ledger.chats
      simp only [proceed, Store.chats_withChat, List.map_append, booked]
      rw [List.map_singleton, List.map_singleton, people, same]
    told_nodup := ledger.told_nodup
    told_mem := fun entry mem => List.mem_append_left _ (ledger.told_mem entry mem)
    notices := ledger.notices
    alone := ledger.alone_of_turn turn fun deals => deals
    unopened := by
      intro j d a' runs e booked
      rcases turn.before runs with ⟨_, _, led⟩ | ⟨other, ran⟩
      · cases led
      · rcases List.mem_append.1 booked with booked | booked
        · exact ledger.unopened ran e booked
        · rw [List.mem_singleton.1 booked, id]
          intro equal
          exact other (ledger.alone turn.runs ran rfl rfl equal).symm
    opened := by
      intro j d a' side rest runs
      rcases turn.before runs with ⟨_, _, led⟩ | ⟨_, ran⟩
      · cases led
        exact ⟨b, by simp, id, same⟩
      · obtain ⟨e, booked, about⟩ := ledger.opened ran
        exact ⟨e, List.mem_append_left _ booked, about⟩
    untold := by
      intro j d a' side rest runs
      rcases turn.before runs with ⟨_, _, led⟩ | ⟨_, ran⟩
      · cases led
        refine ⟨by simp, ?_⟩
        intro entry mem about
        exact absurd about (unbooked entry.1 (ledger.told_mem entry mem))
      · exact ledger.untold ran }

/-- One side of a match is done with, told or not. -/
theorem tell {a : Attempt} {side : Role} {rest : List Role} {told' : List (Attempt × Role)}
    (ledger : t.Ledger as told) (sound : t.Sound)
    (turn : t.Turn faulty i c (.telling a .matched side rest) x (.tell a .matched rest) s p)
    (chats : s.chats = t.store.chats) (nodup : told'.Nodup) (mem : ∀ entry ∈ told', entry.1 ∈ as)
    (notices : s.receivers .matched = told'.map fun entry => entry.1.person entry.2)
    (more : ∀ entry ∈ told', entry ∈ told ∨ (entry.1.id = a.id ∧ entry.2 = side)) :
    (t.proceed i x p s).Ledger as told' := by
  have won {b : Attempt} (deals : (Stance.tell a .matched rest).won? = some b) :
      (Stance.telling a .matched side rest).won? = some b := by
    cases rest with
    | nil => simp [Stance.tell, Stance.won?] at deals
    | cons r rest => exact deals
  exact {
    nodup := ledger.nodup
    matched := ledger.matched_of_grows (sound.grows turn)
    chats := by
      rw [← ledger.chats]
      exact congrArg _ chats
    told_nodup := nodup
    told_mem := mem
    notices := notices
    alone := ledger.alone_of_turn turn won
    unopened := by
      intro j d a' runs
      rcases turn.before runs with ⟨_, _, led⟩ | ⟨_, ran⟩
      · cases rest <;> cases led
      · exact ledger.unopened ran
    opened := by
      intro j d a' r others runs
      rcases turn.before runs with ⟨_, _, led⟩ | ⟨_, ran⟩
      · cases rest <;> cases led
        exact ledger.opened turn.runs
      · exact ledger.opened ran
    untold := by
      intro j d a' r others runs
      rcases turn.before runs with ⟨_, _, led⟩ | ⟨other, ran⟩
      · obtain ⟨distinct, silent⟩ := ledger.untold turn.runs
        obtain ⟨apart, distinct⟩ := List.nodup_cons.1 distinct
        cases rest <;> cases led
        refine ⟨distinct, ?_⟩
        intro entry booked about
        rcases more entry booked with old | ⟨_, here⟩
        · exact fun late => silent entry old about (List.mem_cons_of_mem side late)
        · rw [here]
          exact apart
      · obtain ⟨distinct, silent⟩ := ledger.untold ran
        refine ⟨distinct, ?_⟩
        intro entry booked about
        rcases more entry booked with old | ⟨here, _⟩
        · exact silent entry old about
        · exact absurd (ledger.alone turn.runs ran rfl rfl (here.symm.trans about)).symm other }

theorem notice {a : Attempt} {side : Role} {rest : List Role} {d : Delivery}
    (ledger : t.Ledger as told) (sound : t.Sound) (kind : d.kind = .matched)
    (turn : t.Turn faulty i c (.telling a .matched side rest) x (.tell a .matched rest)
      (t.store.recordDelivery d) p) (receiver : d.receiver = a.person side) :
    ∃ b, (t.proceed i x p (t.store.recordDelivery d)).Ledger as (told ++ [(b, side)]) := by
  obtain ⟨b, booked, id, people⟩ := ledger.opened turn.runs
  obtain ⟨_, silent⟩ := ledger.untold turn.runs
  have person : b.person side = a.person side := by
    obtain ⟨first, second⟩ := Prod.mk.inj people
    cases side
    · exact first
    · exact second
  refine ⟨b, ledger.tell sound turn rfl ?_ ?_ ?_ ?_⟩
  · refine List.nodup_append.2 ⟨ledger.told_nodup, List.nodup_singleton _, ?_⟩
    intro entry mem e last equal
    rw [List.mem_singleton.1 last] at equal
    rw [equal] at mem
    exact silent _ mem id List.mem_cons_self
  · intro entry mem
    rcases List.mem_append.1 mem with mem | mem
    · exact ledger.told_mem entry mem
    · rw [List.mem_singleton.1 mem]
      exact booked
  · rw [Store.receivers_recordDelivery, if_pos kind, ledger.notices, receiver, List.map_append,
      List.map_singleton, person]
  · intro entry mem
    rcases List.mem_append.1 mem with mem | mem
    · exact Or.inl mem
    · rw [List.mem_singleton.1 mem]
      exact Or.inr ⟨id, rfl⟩

theorem turn (ledger : t.Ledger as told) (sound : t.Sound)
    (turn : t.Turn faulty i c st x st' s p) :
    ∃ as told, (t.proceed i x p s).Ledger as told := by
  cases turn.acts with
  | looks => exact ⟨as, told, ledger.pass sound turn rfl rfl (Or.inr rfl)⟩
  | quits | finds | courts | opens | answers | shows | late =>
    exact ⟨as, told, ledger.pass sound turn rfl rfl (Or.inl rfl)⟩
  | @lists bs =>
    refine ⟨as, told, ledger.pass sound turn rfl rfl (Or.inl ?_)⟩
    cases bs <;> rfl
  | @resumes a rest =>
    refine ⟨as, told, ledger.pass sound turn rfl rfl (Or.inl ?_)⟩
    rcases t.store.lastHappening? a.id with _ | last
    · rfl
    · cases last <;> cases rest <;> rfl
  | @writes a e =>
    refine ⟨as, told, ledger.pass sound turn rfl rfl (Or.inl ?_)⟩
    cases e.happening <;> rfl
  | @moves a b state mem same pending =>
    cases state with
    | matched => exact ⟨as, told, ledger.move sound turn rfl rfl mem same pending⟩
    | pending | mismatched => exact ⟨as, told, ledger.pass sound turn rfl rfl (Or.inl rfl)⟩
  | chats first second =>
    obtain ⟨b, ledger⟩ := ledger.chat sound turn (Prod.ext first second)
    exact ⟨_, _, ledger⟩
  | @tells a side rest d _ receiver quiet =>
    cases kind : d.kind with
    | liked =>
      rw [kind] at turn
      refine ⟨as, told, ledger.pass sound turn rfl ?_ (Or.inl ?_)⟩
      · simp [Store.receivers_recordDelivery, kind]
      · cases rest <;> rfl
    | matched =>
      rw [kind] at turn
      obtain ⟨b, ledger⟩ := ledger.notice sound kind turn receiver
      exact ⟨_, _, ledger⟩
  | @misses a kind side rest =>
    cases kind with
    | liked =>
      refine ⟨as, told, ledger.pass sound turn rfl rfl (Or.inl ?_)⟩
      cases rest <;> rfl
    | matched =>
      refine ⟨as, told, ledger.tell sound turn rfl ledger.told_nodup ledger.told_mem
        ledger.notices fun entry mem => Or.inl mem⟩

end Turning

theorem step (ledger : t.Ledger as told) (sound : t.Sound) (step : Step ruler rules t t') :
    ∃ as told, t'.Ledger as told := by
  cases sound.abides.shift step with
  | starts c _ => exact ⟨as, told, ledger.launch sound c⟩
  | turns turn => exact ledger.turn sound turn
  | drops i _ => exact ⟨as, told, ledger.drop i⟩

end Ledger

theorem Reaches.ledger {ruler : Geo.Ruler} {rules : Rules} {s : Store} {t : Traffic}
    (reaches : Reaches ruler rules (opening s) t) (fresh : s.IsFresh) :
    ∃ as told, t.Ledger as told := by
  refine (Sound.opening fresh).keeps (P := fun t => ∃ as told, t.Ledger as told) reaches
    ⟨[], [], Ledger.opening fresh⟩ ?_
  intro t t' sound booked step
  obtain ⟨as, told, ledger⟩ := booked
  exact ledger.step sound step

end Traffic
end Matchmaking
