import Matchmaking.Proofs.Engine.Course
import Matchmaking.Proofs.Engine.Pursuit
/-! What a completed call leaves behind: nothing, or one of six things, each about one attempt. -/
namespace Matchmaking

namespace Store

variable {link : String → String} {s s' : Store}

/-- The attempt with the candidate waits for the answer of that person, on that side. -/
structure Awaits (s : Store) (a : Attempt) (side : Role) (user candidate : UserId) : Prop where
  mem : a ∈ s.attempts
  joins : a.joins user candidate
  pending : a.isPending
  role : Role.of a user = some side
  turn : (s.stage a.id).awaiting = some side

/-- What a call may answer, and the store that it then leaves. -/
inductive Effect (link : String → String) (s : Store) :
    Call → Except MatchError Call.Result → Store → Prop
  /-- The call is refused, or it shows a partner again. -/
  | looks (c : Call) (result : Except MatchError Call.Result) : Effect link s c result s
  /-- A showing to the first person is completed. -/
  | resumes {retries : Nat} {principal : Principal} {a : Attempt} {s' : Store}
      (mem : a ∈ s.attempts) (pending : a.isPending) (first : a.first = principal.id)
      (begun : Stage.after (s.lastHappening? a.id) = .awaitingFirst)
      (tells : s.Tells a.id (Happening.missing (s.lastHappening? a.id)) s') :
      Effect link s (.next retries principal) ((s.shown link a.second).map .partner) s'
  /-- A liker is shown to the second person. -/
  | courts {retries : Nat} {principal : Principal} {a : Attempt} {s' : Store}
      (liker : s.IsLiker principal.id a) (liked : s.lastHappening? a.id = some .firstLiked)
      (tells : s.Tells a.id [.shownToSecond] s') :
      Effect link s (.next retries principal) ((s.shown link a.first).map .partner) s'
  /-- A fresh candidate is shown. -/
  | opens {retries : Nat} {principal : Principal} {a : Attempt} {s' : Store} (clock : Int)
      (first : a.first = principal.id) (somebody : principal.id ≠ 0) (admits : s.Admits a)
      (known : (s.profileOf? a.first).isSome) (other : s.IsOther a.first a.second)
      (tells : (s.withAttempt a clock).Tells a.id [.created, .shownToFirst] s') :
      Effect link s (.next retries principal) ((s.shown link a.second).map .partner) s'
  /-- The first person likes the second one, who is told. -/
  | likes {principal : Principal} {candidate : UserId} {a : Attempt} {s' : Store}
      (delivered : Bool) (waits : s.Awaits a .first principal.id candidate)
      (tells : s.Tells a.id [.firstLiked] s') :
      Effect link s (.swipe principal candidate .like) (.ok .recorded)
        (s'.recordDelivery ⟨.liked, a.second, s.noticeOf link a.first, delivered⟩)
  | dislikes {principal : Principal} {candidate : UserId} {a : Attempt} {side : Role} {s' : Store}
      (waits : s.Awaits a side principal.id candidate)
      (tells : s.Tells a.id [.swipe side .dislike, .failed] s') :
      Effect link s (.swipe principal candidate .dislike) (.ok .recorded)
        (s'.setState a.id .mismatched)
  /-- The second person likes the first one, too; both are told. -/
  | pairs {principal : Principal} {candidate : UserId} {a : Attempt} {s' : Store}
      (number : Nat) (delivered delivered' : Bool)
      (waits : s.Awaits a .second principal.id candidate)
      (tells : s.Tells a.id [.secondLiked, .paired] s') :
      Effect link s (.swipe principal candidate .like) (.ok .recorded)
        ((((s'.setState a.id .matched).withChat ⟨number, a.first, a.second⟩).recordDelivery
          ⟨.matched, a.second, s.noticeOf link a.first, delivered⟩).recordDelivery
          ⟨.matched, a.first, s.noticeOf link a.second, delivered'⟩)

/-- What the verdict of the side that is waited for leaves behind. -/
inductive Settles (link : String → String) (s : Store) (a : Attempt) :
    Role → Verdict → Store → Prop
  | likes {s' : Store} (delivered : Bool) (tells : s.Tells a.id [.firstLiked] s') :
      Settles link s a .first .like
        (s'.recordDelivery ⟨.liked, a.second, s.noticeOf link a.first, delivered⟩)
  | dislikes {side : Role} {s' : Store} (tells : s.Tells a.id [.swipe side .dislike, .failed] s') :
      Settles link s a side .dislike (s'.setState a.id .mismatched)
  | pairs {s' : Store} (number : Nat) (delivered delivered' : Bool)
      (tells : s.Tells a.id [.secondLiked, .paired] s') :
      Settles link s a .second .like
        ((((s'.setState a.id .matched).withChat ⟨number, a.first, a.second⟩).recordDelivery
          ⟨.matched, a.second, s.noticeOf link a.first, delivered⟩).recordDelivery
          ⟨.matched, a.first, s.noticeOf link a.second, delivered'⟩)

theorem Settles.effect {principal : Principal} {candidate : UserId} {a : Attempt} {side : Role}
    {verdict : Verdict} (settles : s.Settles link a side verdict s')
    (waits : s.Awaits a side principal.id candidate) :
    s.Effect link (.swipe principal candidate verdict) (.ok .recorded) s' := by
  cases settles with
  | likes delivered tells => exact .likes delivered waits tells
  | dislikes tells => exact .dislikes waits tells
  | pairs number delivered delivered' tells => exact .pairs number delivered delivered' waits tells

section Partners

variable {ruler : Geo.Ruler} {retries : Nat} {principal : Principal}

theorem effect_of_pursues {outcome : Option (Except MatchError Showcase)}
    {result : Except MatchError Showcase} (ended : outcome = some result)
    (pursues : (serving link).Pursues False ruler link s principal.id outcome s') :
    s.Effect link (.next retries principal) (result.map .partner) s' := by
  cases pursues with
  | nobody | incomplete | stops | rests => exact .looks _ _
  | @takesUp person a owed told v base _ _ somebody described takes partly whole =>
    obtain ⟨rfl, answered⟩ := whole.resolve_right fun cut => cut.1
    obtain rfl := Option.some.inj (answered.symm.trans ended)
    cases takes with
    | resumes proposal own =>
      exact .resumes proposal.mem proposal.pending own proposal.begun partly.tells
    | courts vacant liker served =>
      by_cases liked : s.lastHappening? a.id = some .firstLiked
      · rw [if_pos liked] at partly
        exact .courts liker liked partly.tells
      · rw [if_neg liked] at partly
        rw [partly.idle rfl]
        exact .looks _ _
    | opens clock vacant unliked own admits picked =>
      have other := picked.isOther_of_chosen Keeper.serving_isBound _ rfl
      rw [described.own, ← own] at other
      have known : (s.profileOf? a.first).isSome := by
        rw [own, described.profile]
        rfl
      exact .opens clock own somebody admits known other partly.tells

end Partners

section Answers

open Course

variable {user candidate : UserId} {verdict : Verdict} {pos : Course} {a : Attempt} {side : Role}

/-- How an answer ends that nothing comes between. -/
inductive Answers (link : String → String) (s : Store) (user candidate : UserId)
    (verdict : Verdict) : Course → Store → Prop
  | accepted {a : Attempt} {side : Role} {s' : Store} (waits : s.Awaits a side user candidate)
      (settles : s.Settles link a side verdict s') :
      Answers link s user candidate verdict .accepted s'
  | refused
      (unawaited : ∀ b ∈ s.attempts, b.joins user candidate → b.isPending →
        ∃ a ∈ s.attempts, a.joins user candidate ∧ a.isPending ∧
          ∀ side, ¬s.Awaits a side user candidate) :
      Answers link s user candidate verdict .refused s

theorem settles_of_path {s₁ : Store} (mem : a ∈ s.attempts) (pending : a.isPending)
    (tells : s.Tells a.id [.swipe side verdict] s₁)
    (path : Path link s user candidate (afterAnswering a side verdict) s₁ pos s')
    (stopped : pos.isOver) : pos = .accepted ∧ s.Settles link a side verdict s' := by
  have stored : a ∈ s₁.attempts := by
    rw [tells.attempts]
    exact mem
  cases verdict with
  | dislike =>
    have path : Path link s user candidate (.closing a .dislike) s₁ pos s' := by
      cases side <;> exact path
    obtain ⟨s₂, closes, path⟩ := path.closes stored pending stopped
    obtain ⟨rfl, rfl⟩ := path.eq_of_over rfl
    exact ⟨rfl, .dislikes (tells.trans closes)⟩
  | like =>
    cases side with
    | first =>
      obtain ⟨delivered, path⟩ := Path.tells path stopped
      obtain ⟨rfl, rfl⟩ := path.eq_of_over rfl
      exact ⟨rfl, .likes delivered tells⟩
    | second =>
      obtain ⟨s₂, closes, path⟩ := path.closes stored pending stopped
      obtain ⟨_, _, s₃, leads, path⟩ := path.begins rfl stopped
      cases leads with
      | chats number =>
        obtain ⟨delivered, path⟩ := path.tells stopped
        obtain ⟨delivered', path⟩ := path.tells stopped
        obtain ⟨rfl, rfl⟩ := path.eq_of_over rfl
        exact ⟨rfl, .pairs number delivered delivered' (tells.trans closes)⟩

theorem answers_of_path (path : Path link s user candidate (.asking verdict) s pos s')
    (stopped : pos.isOver) : s.Answers link user candidate verdict pos s' := by
  obtain ⟨_, _, s₁, leads, path⟩ := path.begins rfl stopped
  cases leads with
  | misses absent =>
    obtain ⟨rfl, rfl⟩ := path.eq_of_over rfl
    exact .refused fun b mem joins pending => absurd pending (absent b mem joins)
  | @finds a side _ mem joins pending role =>
    obtain ⟨_, _, s₂, leads, path⟩ := path.begins rfl stopped
    cases leads with
    | unawaited turn =>
      obtain ⟨rfl, rfl⟩ := path.eq_of_over rfl
      refine .refused fun _ _ _ _ => ⟨a, mem, joins, pending, fun side' waits => turn ?_⟩
      rw [waits.turn, Option.some.inj (role.symm.trans waits.role)]
    | waited turn =>
      obtain ⟨_, _, s₃, leads, path⟩ := path.begins rfl stopped
      cases leads with
      | answers tells =>
        obtain ⟨rfl, settles⟩ := settles_of_path mem pending tells path stopped
        exact .accepted ⟨mem, joins, pending, role, turn⟩ settles

theorem answers_of_runs {ruler : Geo.Ruler} {principal : Principal}
    {result : Except MatchError Call.Result} (identified : Engine.identify principal = .ok user)
    (runs : (serving link).Runs s ((Call.swipe principal candidate verdict).program ruler) result
      s') :
    ∃ pos, Ended user candidate .recorded pos result ∧
      s.Answers link user candidate verdict pos s' := by
  obtain ⟨pos, ended, path⟩ := path_of_runs (ends_program identified verdict ruler) rfl rfl runs
  refine ⟨pos, ended, answers_of_path path ?_⟩
  cases pos <;> first | rfl | cases ended

theorem effect_of_answers {principal : Principal} {result : Except MatchError Call.Result}
    (ended : Ended principal.id candidate .recorded pos result)
    (answers : s.Answers link principal.id candidate verdict pos s') :
    s.Effect link (.swipe principal candidate verdict) result s' := by
  cases answers with
  | refused => exact .looks _ _
  | accepted waits settles =>
    cases result with
    | error e => exact ended.elim
    | ok told =>
      obtain rfl : told = .recorded := ended
      exact settles.effect waits

end Answers

/-- Every completed call has one of these effects. -/
theorem Yields.effect {ruler : Geo.Ruler} {c : Call} {result : Except MatchError Call.Result}
    (yields : s.Yields link (c.program ruler) result s') : s.Effect link c result s' := by
  have runs := runs_serving.2 yields
  cases c with
  | next retries principal =>
    obtain ⟨shown, first, rfl⟩ := Keeper.Runs.of_bind_done runs
    have pursues := (first.trails False).nextPartner Keeper.serving_isBound
    exact effect_of_pursues rfl pursues
  | swipe principal candidate verdict =>
    by_cases nobody : principal.id = 0
    · have refused : (Call.swipe principal candidate verdict).program ruler =
          .fail .unauthenticated := by
        simp [Call.program, Engine.swipe, Engine.asUser, Engine.identify, nobody]
      rw [refused] at runs
      obtain ⟨_, rfl⟩ := runs.of_fail
      exact .looks _ _
    · obtain ⟨pos, ended, answers⟩ := answers_of_runs (if_neg nobody) runs
      exact effect_of_answers ended answers

end Store
end Matchmaking
