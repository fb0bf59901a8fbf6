import Missions.Proofs.Completion.Claims.Answering
import Missions.Proofs.Completion.Footprint
import Missions.Proofs.Completion.Progress.Plan
import Missions.Proofs.Completion.Progress.Records
import Missions.Proofs.Completion.Undisturbed.Closing

/-! What each action of a regular completion does to participants and executions. Advancing writes the progress that
the completed executions make; undoing that writes the progress that the run had loaded; no other action writes
either. -/

namespace Missions

open Procedure

/-- An action that was done: the context in which it began, and the result that it came to. -/
structure ActionRecord where
  here : Context
  action : StepAction
  result : CompletionResult

namespace ActionRecord

def Touches (entry : ActionRecord) (id : Int) : Prop :=
  entry.action.phase = .advance ∧ entry.result.isSuccess = true ∧ entry.here.participant.map (·.id) = some id ∧
    (entry.action.undoes = true → (entry.here.kept Snapshot.targetAfter).isSome = true)

instance (entry : ActionRecord) (id : Int) : Decidable (entry.Touches id) := inferInstanceAs (Decidable (_ ∧ _ ∧ _ ∧ _))

/-- The progress that the entry has put back, if it has undone something. -/
def putBack (entry : ActionRecord) : Option UInt8 :=
  if entry.action.undoes then entry.here.kept Snapshot.progressBefore else none

/-- The entry has left a run and the books in order, and has written no other progress than that of the participant
that it touches. -/
structure Sound (entry : ActionRecord) (books : Books) (ctx : Context) (books' : Books) : Prop where
  keyed : books'.Keyed
  sameFrames : books.SameFrames books'
  rooted : ctx.Rooted books'
  shows : ∀ id, entry.Touches id → books'.Shows id entry.putBack
  agree : ∀ id, ¬ entry.Touches id → books.Agree id books'

variable {entry : ActionRecord} {books books' : Books} {ctx : Context}

theorem Sound.of_untouched (hkeyed : books'.Keyed) (hframes : books.SameFrames books') (hrooted : ctx.Rooted books')
    (hnone : ∀ id, ¬ entry.Touches id) (hagree : ∀ id, books.Agree id books') : entry.Sound books ctx books' :=
  ⟨hkeyed, hframes, hrooted, fun id h => absurd h (hnone id), fun id _ => hagree id⟩

theorem Sound.of_moved {p : Participant} (hp : entry.here.participant = some p) (htouches : entry.Touches p.id)
    (hrooted : ctx.Rooted books') (h : books.Moved p.id entry.putBack books') : entry.Sound books ctx books' := by
  refine ⟨h.keyed, h.sameFrames, hrooted, fun id hid => ?_, fun id hid => h.others id fun heq => hid (heq ▸ htouches)⟩
  have heq := hid.2.2.1
  rw [hp] at heq
  exact Option.some.inj heq ▸ h.shows

end ActionRecord

variable {may : CompletionError → Prop} {books : Books} {ctx : Context}

/-! ### Actions that leave the records alone -/

namespace Loading

theorem meets_load_rooted (hkeyed : books.Keyed) (hrooted : ctx.Rooted books) (hregular : ctx.request.pinned = false) :
    load.Meets (Books.protocol may Context)
      (fun _ ctx' books' => books' = books ∧ ctx'.Rooted books) ctx books := by
  rw [load, meets_bind, meets_get]
  dsimp only
  rw [if_neg (Bool.eq_false_iff.1 hregular), loadExecution, meets_bind, meets_get]
  dsimp only
  rw [findMission, bind_assoc]
  have hkept : books = books ∧ ctx.Rooted books := ⟨rfl, hrooted⟩
  refine .ask_bind (by simp) (fun e _ => hkept) (.require_bind hkept fun m hm => ?_)
  refine .ask_bind (by simp) (fun e _ => hkept) (.require_bind hkept fun p hp => .check_bind hkept fun _ => ?_)
  refine .ask_bind (by simp) (fun e _ => hkept) (.require_bind hkept fun x hx => ?_)
  refine .check_bind hkept fun _ => .check_bind hkept fun _ => ?_
  rw [meets_bind, meets_modify]
  obtain ⟨hstored, hof, -⟩ := Books.executionInProgress_eq_some hkeyed hx
  refine ⟨rfl, ?_⟩
  constructor
  · rintro m' ⟨⟩
    have hid := hkeyed.missions _ _ hm
    exact hid ▸ hm
  · rintro m' p' ⟨⟩ ⟨⟩
    exact congrArg _ hp
  · rintro p' x' ⟨⟩ ⟨⟩
    exact ⟨congrArg _ hstored, hof⟩
  · exact fun hmarked => ⟨rfl, (hrooted.marked hmarked).2⟩

end Loading

structure Framed (books : Books) (ctx ctx' : Context) (books' : Books) : Prop where
  keyed : books'.Keyed
  missions : books'.missions = books.missions
  participants : books'.participants = books.participants
  executions : books'.executions = books.executions
  brief : ctx'.brief = ctx.brief
  records : ctx'.records = ctx.records
  closing : ctx'.closing = ctx.closing

def Method.sparesRecords : Method → Bool
  | .saveParticipant | .saveExecution | .completeExecution => false
  | _ => true

theorem Books.Answers.spares {books' : Books} {c : Call} {answer : Except CompletionError c.Answer}
    (h : books.Answers may c answer books') (hc : c.method.sparesRecords = true) :
    books'.missions = books.missions ∧ books'.participants = books.participants ∧
      books'.executions = books.executions := by
  cases h with
  | failed | claimLost => exact ⟨rfl, rfl, rfl⟩
  | performed =>
    cases c with
    | saveParticipant | saveExecution | completeExecution => cases hc
    | setShared target shared => cases target <;> exact ⟨rfl, rfl, rfl⟩
    | completeInstance id =>
      simp only [Books.perform, Books.completeInstance]
      split
      · split <;> exact ⟨rfl, rfl, rfl⟩
      · exact ⟨rfl, rfl, rfl⟩
    | _ => exact ⟨rfl, rfl, rfl⟩

/-- A step that spares the records, and writes other snapshots than those of a closed record, leaves all that as it
is. -/
theorem tolerates_framed (books : Books) (ctx : Context) (methods : Method → Bool) (names : List String)
    (hmethods : ∀ m, methods m = true → m.sparesRecords = true)
    (hnames : ∀ name ∈ Advance.closingMarks, name ∉ names) :
    Tolerates (Books.protocol may Context) (Framed books ctx) methods (Context.MarkedOnly names) where
  call hframed hc := by
    refine ⟨trivial, fun answer books' hanswer => ?_⟩
    obtain ⟨hmissions, hparticipants, hexecutions⟩ := hanswer.spares (hmethods _ hc)
    exact ⟨hanswer.keyed hframed.keyed, hmissions.trans hframed.missions, hparticipants.trans hframed.participants,
      hexecutions.trans hframed.executions, hframed.brief, hframed.records, hframed.closing⟩
  change hframed hmarked :=
    { hframed with
      brief := hmarked.brief.trans hframed.brief
      records := hmarked.records.trans hframed.records
      closing := (hmarked.closing hnames).trans hframed.closing }

theorem framed_refl (hkeyed : books.Keyed) (ctx : Context) : Framed books ctx ctx books :=
  ⟨hkeyed, rfl, rfl, rfl, rfl, rfl, rfl⟩

theorem Framed.sound {entry : ActionRecord} {ctx' : Context} {books' : Books} (h : Framed books entry.here ctx' books')
    (hrooted : entry.here.Rooted books) (hphase : entry.action.phase ≠ .advance) : entry.Sound books ctx' books' := by
  have hframes : books.SameFrames books' := .of_eq h.missions h.participants h.executions
  refine .of_untouched h.keyed hframes (.sameFrames ?_ hframes) (fun id htouches => hphase htouches.1) fun id => ?_
  · refine hrooted.of_frames h.brief ?_ ?_ ?_
    · exact congrArg (fun records : Context.Records => records.participant.map Participant.frame) h.records
    · exact congrArg (fun records : Context.Records => records.execution.map Execution.frame) h.records
    · rw [h.closing, show ctx'.participant = entry.here.participant from
        congrArg Context.Records.participant h.records]
      exact hrooted.marked
  · exact ⟨by rw [h.participants], by rw [Books.executionCount, h.executions]; rfl⟩

/-! ### The participant's step -/

namespace Advance

theorem facets_ended (ctx : Context) (p : Participant) :
    (ended ctx p).brief = ctx.brief ∧ (ended ctx p).participant = some p ∧
      (ended ctx p).execution.map Execution.frame = ctx.execution.map Execution.frame := by
  refine ⟨?_, rfl, Context.map_frame_withExecutionStatus _ .completed⟩
  simp only [ended, Context.brief, Context.keep, Context.withExecutionStatus, Context.withParticipant]

theorem moved_advanced (hkeyed : books.Keyed) (hrooted : ctx.Rooted books) {m : Mission} {p : Participant}
    (hm : ctx.mission = some m) (hp : ctx.participant = some p) {y : Execution}
    (hy : books.executions.get? y.id = some y) (hof : y.participant = p.id) :
    let claimed := books.putExecution { y with status := .completed }
    books.Moved p.id none
      (claimed.putParticipant (p.advanced (claimed.executionCount p.id .completed) m.totalExecutions)) := by
  obtain ⟨q, -, hq, hframe, hmission⟩ := hrooted.stored_participant hkeyed hm hp
  refine Books.moved_put hkeyed (q := p.advanced _ _) (x := y) hy rfl hq hframe.symm hof fun m' hm' => ?_
  have hsame : q.frame.mission = p.frame.mission := congrArg Participant.mission hframe
  have hstored : books.missions.get? p.mission = some m := by
    rw [show p.mission = m.id from hsame.symm.trans hmission]
    exact hrooted.mission m hm
  obtain rfl := Option.some.inj (hstored.symm.trans hm')
  rfl

theorem meets_update_rooted (hkeyed : books.Keyed) (hrooted : ctx.Rooted books) :
    update.Meets (Books.protocol may Context) (Either
      (fun ctx' books' => ctx'.Rooted books' ∧ ∃ p, ctx.participant = some p ∧ books.Moved p.id none books')
      fun e ctx' books' => e.leftClaimed = none → ctx'.Rooted books ∧ books' = books) ctx books := by
  refine meets_update_of_attempts (fun _ _ => ⟨hrooted, rfl⟩) fun m p x hm hp hx r ctx' g h => ?_
  obtain ⟨hbrief, -, hrecords⟩ := facets_begun ctx p x
  have hclosing := closing_begun ctx p x
  have hparticipant : (begun ctx p x).participant = ctx.participant := congrArg Context.Records.participant hrecords
  have hexecution : (begun ctx p x).execution = ctx.execution := congrArg Context.Records.execution hrecords
  have hbegun : (begun ctx p x).Rooted books := by
    refine hrooted.of_frames hbrief (congrArg _ hparticipant) (congrArg _ hexecution) fun hmarked => ?_
    rw [hclosing] at hmarked ⊢
    obtain ⟨-, hcomplete⟩ := hrooted.marked hmarked
    exact ⟨by rw [hparticipant, hp]; rfl, rfl, rfl, hcomplete.progressAfter, rfl, hcomplete.participantAfter⟩
  -- a claim that held was of the stored execution, which was in progress
  have hstored {claimed : Books} (hclaimed : books.completeExecution x.id = (true, claimed)) :
      ∃ y, books.executions.get? y.id = some y ∧ y.participant = p.id ∧ { x with status := .inProgress } = y ∧
        claimed = books.putExecution { y with status := .completed } := by
    rcases books.completeExecution_cases hkeyed x.id with hlost | ⟨y, hid, hy, hopen, hclaimed'⟩
    · cases hclaimed.symm.trans hlost
    · obtain ⟨y', hy', hframe, hof⟩ := hrooted.stored_execution hp hx
      obtain rfl := Option.some.inj (hy.symm.trans hy')
      exact ⟨y, hid ▸ hy, hof, by rw [Execution.eq_of_frame hframe, hopen],
        (Prod.mk.inj (hclaimed.symm.trans hclaimed')).2⟩
  cases h with
  | lost | refused => exact fun _ => ⟨hbegun, rfl⟩
  | released hclaimed =>
    obtain ⟨y, hy, -, hback, rfl⟩ := hstored hclaimed
    refine fun _ => ⟨hbegun, ?_⟩
    rw [hback]
    exact Books.putExecution_putExecution hy rfl
  | stuck => exact fun hnone => nomatch hnone
  | closed hclaimed hupdated =>
    obtain ⟨y, hy, hof, -, rfl⟩ := hstored hclaimed
    subst hupdated
    obtain ⟨hbrief', hparticipant', hexecution'⟩ := facets_ended (begun ctx p x) _
    have hmoved := moved_advanced hkeyed hrooted hm hp hy hof
    refine ⟨(hbegun.sameFrames hmoved.sameFrames).of_frames hbrief' ?_ hexecution' fun _ => ?_, p, hp, hmoved⟩
    · rw [hparticipant', hparticipant, hp]
      rfl
    · rw [closing_ended, hclosing, hparticipant']
      exact ⟨rfl, rfl, rfl, rfl, rfl, rfl⟩

theorem meets_restoreExecution_rooted (hkeyed : books.Keyed) (id : Int) (before after : ExecutionStatus) :
    (restoreExecution id before after).Meets (Books.protocol may Context) (fun r ctx' books' => ctx' = ctx ∧
      match r with
      | .error _ => books' = books
      | .ok _ => ∃ x y, books.executions.get? id = some x ∧ y.id = id ∧ y.frame = x.frame ∧
          books' = books.putExecution y) ctx books := by
  rw [restoreExecution]
  refine .ask_bind (by simp) (fun e _ => ⟨rfl, rfl⟩) (.require_bind ⟨rfl, rfl⟩ fun x hx => ?_)
  have hid : x.id = id := hkeyed.executions id x hx
  by_cases hbefore : x.status = before
  · rw [if_pos hbefore, meets_pure]
    exact ⟨rfl, x, x, hx, hid, rfl, (Books.putExecution_eq_self (hid.symm ▸ hx)).symm⟩
  · rw [if_neg hbefore]
    by_cases hafter : x.status ≠ after
    · rw [if_pos hafter, meets_throw]
      exact ⟨rfl, rfl⟩
    · rw [if_neg hafter]
      refine .ask_bind (by simp) (fun e _ => ⟨rfl, rfl⟩) ?_
      exact ⟨rfl, x, { x with status := before }, hx, hid, rfl, rfl⟩

theorem meets_restoreParticipant_rooted (hkeyed : books.Keyed) (hcomplete : ctx.closing.Complete) (mission : Int) :
    (restoreParticipant mission).Meets (Books.protocol may Context) (fun r ctx' books' => ctx' = ctx ∧
      match r with
      | .error _ => books' = books
      | .ok found => ∃ p q, books.participantOf mission ctx.request.user = some p ∧ found = some q ∧
          q.frame = p.frame ∧ ctx.kept Snapshot.progressBefore = some q.progress ∧
          books' = books.putParticipant q) ctx books := by
  obtain ⟨progress, hprogress⟩ := Option.isSome_iff_exists.1 hcomplete.progressBefore
  obtain ⟨standing, hstanding⟩ := Option.isSome_iff_exists.1 hcomplete.participantBefore
  obtain ⟨progress', hprogress'⟩ := Option.isSome_iff_exists.1 hcomplete.progressAfter
  obtain ⟨standing', hstanding'⟩ := Option.isSome_iff_exists.1 hcomplete.participantAfter
  change ctx.kept Snapshot.progressBefore = some progress at hprogress
  change ctx.kept Snapshot.participantBefore = some standing at hstanding
  change ctx.kept Snapshot.progressAfter = some progress' at hprogress'
  change ctx.kept Snapshot.participantAfter = some standing' at hstanding'
  rw [restoreParticipant, meets_bind, meets_get]
  simp only [hprogress, hstanding, hprogress', hstanding']
  refine .ask_bind (by simp) (fun e _ => ⟨rfl, rfl⟩) (.require_bind ⟨rfl, rfl⟩ fun p hp => ?_)
  by_cases hbefore : p.progress = progress ∧ p.status = standing
  · rw [if_pos hbefore, meets_pure]
    obtain ⟨hstored, -⟩ := Books.participantOf_eq_some hkeyed hp
    exact ⟨rfl, p, p, hp, rfl, rfl, congrArg some hbefore.1.symm, (Books.putParticipant_eq_self hstored).symm⟩
  · rw [if_neg hbefore]
    by_cases hafter : p.progress ≠ progress' ∨ p.status ≠ standing'
    · rw [if_pos hafter, meets_throw]
      exact ⟨rfl, rfl⟩
    · rw [if_neg hafter]
      refine .ask_bind (by simp) (fun e _ => ⟨rfl, rfl⟩) ?_
      exact ⟨rfl, p, { p with progress, status := standing }, hp, rfl, rfl, rfl, rfl⟩

theorem moved_back (hkeyed : books.Keyed) (hrooted : ctx.Rooted books) {m : Mission} {p q q' : Participant}
    {x x' y : Execution} (hm : ctx.mission = some m) (hp : ctx.participant = some p) (hx : ctx.execution = some x)
    (hx' : books.executions.get? x.id = some x') (hid : y.id = x.id) (hy : y.frame = x'.frame)
    (hq : books.participantOf m.id ctx.request.user = some q) (hq' : q'.frame = q.frame) :
    q'.frame = p.frame ∧ books.Moved p.id (some q'.progress) ((books.putExecution y).putParticipant q') := by
  obtain ⟨q₀, hq₀, hstored, hframe, -⟩ := hrooted.stored_participant hkeyed hm hp
  obtain rfl := Option.some.inj (hq.symm.trans hq₀)
  obtain ⟨x₀, hx₀, -, hof⟩ := hrooted.stored_execution hp hx
  obtain rfl := Option.some.inj (hx'.symm.trans hx₀)
  have hsame : q'.frame = p.frame := hq'.trans hframe
  have hpid : q'.frame.id = p.frame.id := congrArg Participant.id hsame
  have hqid : q'.id = p.id := hpid
  refine ⟨hsame, ?_⟩
  rw [← hqid] at hstored hof ⊢
  exact Books.moved_put hkeyed (hid ▸ hx') hy hstored hq' hof fun m' _ => rfl

/-- Undoing that succeeds has put the participant back to the progress that the run had loaded, if the run had completed
an execution. -/
theorem meets_revert_rooted (hkeyed : books.Keyed) (hrooted : ctx.Rooted books) :
    revert.Meets (Books.protocol may Context) (Either
      (fun ctx' books' => ctx'.Rooted books' ∧
        ((ctx.kept Snapshot.targetAfter = none ∧ books' = books) ∨
          (ctx.kept Snapshot.targetAfter).isSome ∧ ∃ p, ctx.participant = some p ∧
            books.Moved p.id (ctx.kept Snapshot.progressBefore) books'))
      fun _ _ _ => True) ctx books := by
  rw [revert, meets_bind, meets_get]
  cases hafter : ctx.kept Snapshot.targetAfter with
  | none =>
    cases hbefore : ctx.kept Snapshot.targetBefore <;> simp only [hafter, hbefore, meets_pure, Either]
    all_goals exact ⟨hrooted, .inl ⟨trivial, trivial⟩⟩
  | some after =>
    obtain ⟨hparticipant, hcomplete⟩ := hrooted.marked (by rw [Context.closing, hafter]; rfl)
    obtain ⟨p, hp⟩ := Option.isSome_iff_exists.1 hparticipant
    obtain ⟨before, hbefore⟩ := Option.isSome_iff_exists.1 hcomplete.targetBefore
    change ctx.kept Snapshot.targetBefore = some before at hbefore
    simp only [hbefore, hafter]
    refine .require_bind trivial fun x hx => .require_bind trivial fun m hm => ?_
    simp only [meets_bind, meets_outcome]
    refine (meets_restoreExecution_rooted hkeyed x.id before after).mono fun executionOutcome ctx' books' hr => ?_
    obtain ⟨rfl, hr⟩ := hr
    simp only [meets_modify]
    cases executionOutcome with
    | error e =>
      obtain rfl := hr
      refine (meets_restoreParticipant_rooted hkeyed hcomplete m.id).mono fun participantOutcome ctx'' books' hr => ?_
      obtain ⟨rfl, hr⟩ := hr
      cases participantOutcome with
      | error e' => exact trivial
      | ok found => cases found <;> exact trivial
    | ok moved =>
      obtain ⟨x', y, hx', hid, hframe, rfl⟩ := hr
      have hcomplete' : (ctx'.withExecutionStatus before).closing.Complete := hcomplete
      refine (meets_restoreParticipant_rooted (hkeyed.putExecution y) hcomplete' m.id).mono
        fun participantOutcome ctx'' books' hr => ?_
      obtain ⟨rfl, hr⟩ := hr
      cases participantOutcome with
      | error e => cases moved <;> exact trivial
      | ok found =>
        obtain ⟨q, q', hq, rfl, hframe', hprogress, rfl⟩ := hr
        obtain ⟨hsame, hmoved⟩ := moved_back hkeyed hrooted hm hp hx hx' hid hframe hq hframe'
        have hrooted' : ((ctx'.withExecutionStatus before).withParticipant q').Rooted
            ((books.putExecution y).putParticipant q') := by
          refine (hrooted.sameFrames hmoved.sameFrames).of_frames rfl ?_
            (ctx'.map_frame_withExecutionStatus before) fun _ => ⟨rfl, hcomplete⟩
          rw [hp]
          exact congrArg some hsame
        have hshown : ctx'.kept Snapshot.progressBefore = some q'.progress := hprogress
        cases moved <;> exact ⟨hrooted', .inr ⟨rfl, p, hp, hshown ▸ hmoved⟩⟩

end Advance

/-! ### All actions -/

namespace StepAction

theorem obeys_request (action : StepAction) (ctx : Context) (books : Books) :
    (action.body.run ctx).Obeys (Books.protocol may Context) (fun r _ => r.2.request = ctx.request) books := by
  have htolerates {methods : Method → Bool} {changes : Context → Context → Prop}
      (hchanges : ∀ {ctx ctx'}, changes ctx ctx' → ctx'.request = ctx.request) :
      Tolerates (Books.protocol may Context) (fun ctx' _ => ctx'.request = ctx.request) methods changes :=
    ⟨fun hrequest _ => ⟨trivial, fun _ _ _ => hrequest⟩, fun hrequest h => (hchanges h).trans hrequest⟩
  have hmarked {names : List String} {ctx ctx' : Context} (h : ctx.Marked names ctx') : ctx'.request = ctx.request :=
    congrArg Context.Brief.request h.brief
  have honly {names : List String} {ctx ctx' : Context} (h : ctx.MarkedOnly names ctx') :
      ctx'.request = ctx.request := hmarked h.toMarked
  obtain ⟨phase, undoes⟩ := action
  cases phase <;> cases undoes
  · exact (Loading.confined_load.preserves (htolerates Loading.Loads.request)).settle rfl
  · exact rfl
  · exact (UserReward.confined_grant.preserves (htolerates honly)).settle rfl
  · exact (UserReward.confined_revert.preserves (htolerates honly)).settle rfl
  · exact (Advance.confined_update.preserves (htolerates hmarked)).settle rfl
  · exact (Advance.confined_revert.preserves (htolerates hmarked)).settle rfl
  · exact (Closing.confined_close.preserves (htolerates hmarked)).settle rfl
  · exact (Closing.confined_revert.preserves (htolerates hmarked)).settle rfl
  · exact (GuildReward.confined_grant.preserves (htolerates honly)).settle rfl
  · exact (GuildReward.confined_revert.preserves (htolerates honly)).settle rfl
  · exact (Sharing.confined_publish.preserves (htolerates honly)).settle rfl
  · exact (Sharing.confined_unpublish.preserves (htolerates honly)).settle rfl

/-- What an action of a regular run comes to: it has left the run and the books in order, unless it lapses. -/
def Outcome (action : StepAction) (ctx : Context) (books : Books) (r : CompletionResult × Context) (books' : Books) :
    Prop :=
  action.lapses r.1 = false → ActionRecord.Sound ⟨ctx, action, r.1⟩ books r.2 books'

theorem obeys_framed {action : StepAction} (hphase : action.phase ≠ .advance) (hrooted : ctx.Rooted books)
    (h : (action.body.run ctx).Obeys (Books.protocol may Context) (fun r => Framed books ctx r.2) books) :
    (action.body.run ctx).Obeys (Books.protocol may Context) (action.Outcome ctx books) books := by
  refine h.mono fun r books' hframed _ => ?_
  have hentry : Framed books (ActionRecord.mk ctx action r.1).here r.2 books' := hframed
  exact hentry.sound hrooted hphase

theorem obeys_load (hkeyed : books.Keyed) (hrooted : ctx.Rooted books) (hregular : ctx.request.pinned = false) :
    ((mk .loading false).body.run ctx).Obeys (Books.protocol may Context) ((mk .loading false).Outcome ctx books)
      books := by
  refine obeys_settle.2 ((Loading.meets_load_rooted hkeyed hrooted hregular).mono fun r ctx' books' hr => ?_)
  obtain ⟨rfl, hrooted'⟩ := hr
  have hnone (result : CompletionResult) (id : Int) : ¬ (ActionRecord.mk ctx ⟨.loading, false⟩ result).Touches id :=
    fun htouches => nomatch htouches.1
  cases r <;> exact fun _ => .of_untouched hkeyed (.refl _) hrooted' (hnone _) fun id => .refl id _

theorem obeys_update (hkeyed : books.Keyed) (hrooted : ctx.Rooted books) :
    ((mk .advance false).body.run ctx).Obeys (Books.protocol may Context) ((mk .advance false).Outcome ctx books)
      books := by
  refine (Advance.meets_update_rooted hkeyed hrooted).settle.mono fun r books' hr => ?_
  obtain ⟨result, ctx'⟩ := r
  have hkept {e : CompletionError} (hfailed : result.isSuccess = false) (he : e.leftClaimed = none)
      (hleft : e.leftClaimed = none → ctx'.Rooted books ∧ books' = books) :
      ActionRecord.Sound ⟨ctx, ⟨.advance, false⟩, result⟩ books ctx' books' := by
    obtain ⟨hrooted', rfl⟩ := hleft he
    exact .of_untouched hkeyed (.refl _) hrooted' (fun id h => nomatch hfailed.symm.trans h.2.1) fun id => .refl id _
  cases result with
  | success message receipt =>
    obtain ⟨hrooted', p, hp, hmoved⟩ := hr
    exact fun _ => .of_moved hp ⟨rfl, rfl, congrArg _ hp, nofun⟩ hrooted' hmoved
  | transient message cause =>
    obtain ⟨e, rfl, hpasses, hleft⟩ := hr
    refine fun _ => hkept rfl ?_ hleft
    cases e <;> first | rfl | cases hpasses
  | rejected message e =>
    obtain ⟨-, hleft⟩ := hr
    exact fun hlapses => hkept rfl (Option.isNone_iff_eq_none.1 (Option.isSome_eq_false_iff.1 hlapses)) hleft

theorem obeys_revert (hkeyed : books.Keyed) (hrooted : ctx.Rooted books) :
    ((mk .advance true).body.run ctx).Obeys (Books.protocol may Context) ((mk .advance true).Outcome ctx books)
      books := by
  refine (Advance.meets_revert_rooted hkeyed hrooted).settle.mono fun r books' hr => ?_
  obtain ⟨result, ctx'⟩ := r
  cases result with
  | success message receipt =>
    obtain ⟨hrooted', ⟨hunmarked, rfl⟩ | ⟨hmarked, p, hp, hmoved⟩⟩ := hr
    · refine fun _ => .of_untouched hkeyed (.refl _) hrooted' (fun id htouches => ?_) fun id => .refl id _
      have hsome := htouches.2.2.2 rfl
      rw [show (ActionRecord.mk ctx ⟨.advance, true⟩ (.success message receipt)).here = ctx from rfl,
        hunmarked] at hsome
      cases hsome
    · exact fun _ => .of_moved hp ⟨rfl, rfl, congrArg _ hp, fun _ => hmarked⟩ hrooted' hmoved
  | transient | rejected => exact nofun

theorem obeys_body (action : StepAction) (hkeyed : books.Keyed) (hrooted : ctx.Rooted books)
    (hregular : ctx.request.pinned = false) (hphase : action.phase ≠ .closing) :
    (action.body.run ctx).Obeys (Books.protocol may Context) (action.Outcome ctx books) books := by
  obtain ⟨phase, undoes⟩ := action
  have hframed := framed_refl hkeyed ctx
  cases phase with
  | closing => exact absurd rfl hphase
  | advance =>
    cases undoes with
    | false => exact obeys_update hkeyed hrooted
    | true => exact obeys_revert hkeyed hrooted
  | loading =>
    cases undoes with
    | false => exact obeys_load hkeyed hrooted hregular
    | true => exact obeys_framed nofun hrooted hframed
  | userReward =>
    have hspares : Tolerates (Books.protocol may Context) (Framed books ctx) UserReward.methods
        (Context.MarkedOnly UserReward.marks) :=
      tolerates_framed books ctx _ _ (fun m hm => by cases m <;> first | rfl | cases hm) (by decide)
    refine obeys_framed nofun hrooted ?_
    cases undoes with
    | false => exact (UserReward.confined_grant.preserves hspares).settle hframed
    | true =>
      have hundo : Tolerates _ _ UserReward.undoMethods _ := (hspares.fewer (by decide)).unmarkedOnly
      exact (UserReward.confined_revert.preserves hundo).settle hframed
  | guildReward =>
    have hspares : Tolerates (Books.protocol may Context) (Framed books ctx) GuildReward.methods
        (Context.MarkedOnly GuildReward.marks) :=
      tolerates_framed books ctx _ _ (fun m hm => by cases m <;> first | rfl | cases hm) (by decide)
    refine obeys_framed nofun hrooted ?_
    cases undoes with
    | false => exact (GuildReward.confined_grant.preserves hspares).settle hframed
    | true =>
      have hundo : Tolerates _ _ GuildReward.undoMethods _ := (hspares.fewer (by decide)).unmarkedOnly
      exact (GuildReward.confined_revert.preserves hundo).settle hframed
  | sharing =>
    have hspares : Tolerates (Books.protocol may Context) (Framed books ctx) Sharing.methods
        (Context.MarkedOnly []) :=
      tolerates_framed books ctx _ _ (fun m hm => by cases m <;> first | rfl | cases hm) (by decide)
    refine obeys_framed nofun hrooted ?_
    cases undoes with
    | false => exact (Sharing.confined_publish.preserves hspares).settle hframed
    | true => exact (Sharing.confined_unpublish.preserves (hspares.fewer (by decide))).settle hframed

end StepAction

end Missions
