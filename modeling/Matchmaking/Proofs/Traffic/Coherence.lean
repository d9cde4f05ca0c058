import Matchmaking.Proofs.Engine.Venture
import Matchmaking.Proofs.Outcome.Books
import Matchmaking.Proofs.Traffic.History
import Matchmaking.Proofs.Traffic.Proposals
import Matchmaking.Proofs.Traffic.Resumption
/-! What the store looks like between calls that are made one at a time. It does not matter where
such calls are cut off: no attempt is entered twice, no two people have two attempts pending, and no
user is first in two attempts that wait for them. -/
namespace Matchmaking
namespace Store

/-- Attempts, pairs and proposals are told apart. -/
structure IsCoherent (s : Store) : Prop where
  register : s.IsRegister
  nodup : (s.attempts.map Attempt.id).Nodup
  exclusive : s.IsExclusive
  proposals : ∀ a b, s.IsProposal a → s.IsProposal b → a.first = b.first → a = b

theorem Serves.nodup {s s' : Store} {r : Request} {reply : r.Reply} (served : s.Serves r reply s')
    (nodup : (s.attempts.map Attempt.id).Nodup) : (s'.attempts.map Attempt.id).Nodup := by
  cases served with
  | opens id createdAt clock free fresh =>
    rw [attempts_withAttempt, List.map_append]
    refine List.nodup_append.2 ⟨nodup, List.nodup_singleton _, ?_⟩
    intro other mem new here same
    obtain ⟨a, stored, rfl⟩ := List.mem_map.1 mem
    exact fresh a stored (same.trans (List.mem_singleton.1 here))
  | finishes state =>
    rw [attempts_setState, List.map_map]
    simpa only [Function.comp_def, Attempt.id_move] using nodup
  | _ => exact nodup

namespace IsCoherent

variable {s : Store} (coherent : s.IsCoherent)

include coherent

theorem filter_eq_singleton {a : Attempt} {u v : UserId} (mem : a ∈ s.attempts)
    (joins : a.joins u v) (pending : a.isPending) :
    s.attempts.filter (fun b => b.joins u v && b.isPending) = [a] := by
  have alone (b : Attempt) (stored : b ∈ s.attempts) :
      (b.joins u v && b.isPending) = (b == a) := by
    rw [Bool.eq_iff_iff, Bool.and_eq_true, beq_iff_eq]
    constructor
    · rintro ⟨joins', pending'⟩
      exact coherent.exclusive.eq_of_joins mem pending joins stored pending' joins'
    · rintro rfl
      exact ⟨joins, pending⟩
  rw [List.filter_congr alone, List.filter_beq,
    List.count_eq_one_of_mem (List.Nodup.of_map _ coherent.nodup) mem]
  rfl

end IsCoherent

end Store

namespace Traffic

variable {ruler : Geo.Ruler} {rules : Rules} {t t' : Traffic} {s s' : Store}

theorem Reaches.nodup (reaches : Reaches ruler rules (opening s) t) (fresh : s.IsFresh) :
    (t.store.attempts.map Attempt.id).Nodup := by
  induction reaches with
  | refl => simp [opening, fresh.attempts]
  | tail _ step ih =>
    cases step with
    | starts => exact ih
    | serves _ served => exact served.nodup ih
    | refuses => exact ih
    | drops => exact ih

theorem Reaches.fragile (reaches : Reaches ruler .sequential t t') :
    Reaches ruler .fragile t t' := by
  refine reaches.mono ?_ fun allowed => allowed
  intro t c quiet i d st runs
  exact absurd runs (not_runs_of_isQuiet quiet)

theorem Reaches.isCoherent (reaches : Reaches ruler .sequential (opening s) t)
    (fresh : s.IsFresh) : t.store.IsCoherent where
  register := (Reaches.sound reaches fresh).register
  nodup := reaches.nodup fresh
  exclusive := reaches.isExclusive fresh
  proposals := by
    obtain ⟨places, proposing⟩ := reaches.fragile.proposing fresh
    exact proposing.unique

section Calls

variable {link : String → String} {faulty : Prop}
  {outcome : Option (Except MatchError Call.Result)}

theorem IsAlone.reaches_of_ventures {i : CallId} {c : Call} {p : Program Call.Result}
    (ventures : s.Ventures link faulty p outcome s') (allowed : faulty → rules.mayFail)
    (alone : t.IsAlone i) (aloft : t.flights[i]? = some ⟨c, p⟩) (store : t.store = s) :
    ∃ t', Reaches ruler rules t t' ∧ t'.isQuiet ∧ t'.store = s' := by
  have proceeds {t : Traffic} (alone : t.IsAlone i) (x : Exchange) (p : Program Call.Result)
      (s : Store) : (t.proceed i x p s).IsAlone i := by
    intro j f other found
    rw [flight_proceed_of_ne other] at found
    exact alone j f other found
  induction ventures generalizing t with
  | done s a => exact ⟨t, .refl, alone.isQuiet aloft rfl, store⟩
  | fail s e => exact ⟨t, .refl, alone.isQuiet aloft rfl, store⟩
  | @serves s s₁ s₂ r k reply _ served _ _ _ ih =>
    subst store
    obtain ⟨t', reaches, quiet, store⟩ :=
      ih (proceeds alone ⟨r, reply⟩ _ s₁) (flight_proceed_self ⟨r, reply⟩ s₁ aloft) rfl
    exact ⟨t', .head (.serves aloft served) reaches, quiet, store⟩
  | @refuses s s₁ r k _ fault e _ ih =>
    subst store
    obtain ⟨t', reaches, quiet, store⟩ :=
      ih (proceeds alone ⟨r, _⟩ _ t.store) (flight_proceed_self ⟨r, _⟩ t.store aloft) rfl
    exact ⟨t', .head (.refuses e aloft (allowed fault)) reaches, quiet, store⟩
  | drops s r k fault =>
    refine ⟨t.drop i, .single (.drops aloft (allowed fault)), ?_, store⟩
    apply List.all_eq_true.2
    intro f mem
    obtain ⟨j, found⟩ := List.mem_iff_getElem?.1 mem
    by_contra running
    obtain ⟨other, found⟩ := flight_drop found (by simpa using running)
    simp [alone j f other found] at running

/-- A call that is made when no other is in flight, cut off or not, is traffic of that kind. -/
theorem reaches_of_ventures {c : Call} (quiet : t.isQuiet) (allowed : faulty → rules.mayFail)
    (start : rules.mayStart t c)
    (ventures : t.store.Ventures link faulty (c.program ruler) outcome s') :
    ∃ t', Reaches ruler rules t t' ∧ t'.isQuiet ∧ t'.store = s' := by
  obtain ⟨t', reaches, quiet', store⟩ :=
    IsAlone.reaches_of_ventures ventures allowed (isAlone_launch quiet c)
      (flight_launch_self t ruler c) rfl
  exact ⟨t', .head (.starts c start) reaches, quiet', store⟩

theorem Reaches.isCoherent_of_ventures {c : Call}
    (reaches : Reaches ruler .sequential (opening s) t) (fresh : s.IsFresh) (quiet : t.isQuiet)
    (ventures : t.store.Ventures link faulty (c.program ruler) outcome s') : s'.IsCoherent := by
  have start : Rules.sequential.mayStart t c := quiet
  obtain ⟨t', more, _, rfl⟩ := reaches_of_ventures quiet (fun _ => trivial) start ventures
  exact Reaches.isCoherent (reaches.trans more) fresh

end Calls

end Traffic
end Matchmaking
