import Missions.Proofs.Completion.Agreement.Reporting
import Missions.Proofs.Completion.Earnings

/-! What a completion that went through reports, against the books before and after it. -/

namespace Missions

namespace Completion

/-! ### Specification -/

structure StepsAgree (completion : Completion) (pinned guild : Bool) : Prop where
  /-- Each step is reported once: as executed, as skipped, or by the error of sharing. -/
  all : (completion.executedSteps ++ completion.skippedSteps ++
    if completion.feedError.isSome then [Sharing.step.name] else []).Perm Operation.stepNames
  inOrder : completion.executedSteps.Sublist Operation.stepNames
  advanced : Advance.step.name ∈ completion.executedSteps ↔ pinned = false
  closed : Closing.step.name ∈ completion.executedSteps ↔ pinned = true
  guildRewarded : GuildReward.step.name ∈ completion.executedSteps ↔ guild = true

/-- The entry that is reported. `shares` says whether there should be one, `target` is the completed record. -/
structure FeedAgrees (completion : Completion) (shares : Bool) (target : Target) (before after : Books) : Prop where
  feed : ∀ id, completion.feed = some id ↔ ∃ entry : Feed, entry.id = id ∧ after.feeds = before.feeds ++ [entry]
  shared : completion.feed.isSome = true → after.sharedFlag target = some true
  unshared : completion.feed = none → after.feeds = before.feeds
  error : completion.feedError.isSome = true ↔ shares = true ∧ completion.feed = none

structure ProgressAgrees (completion : Completion) (r : Request) (mission : Int) (after : Books) : Prop where
  regular : r.pinned = false →
    ∃ p, after.participantOf mission r.user = some p ∧ completion.progress = some p.progress
  pinned : r.pinned = true → completion.progress = none

/-- The levels that are reported are those of the user's totals, where an amount is granted. -/
structure LevelsAgree (completion : Completion) (user : String) (amount : Int) (before after : Books) : Prop where
  granted : 0 < amount → completion.levelBefore = some (before.experience user).level ∧
    completion.levelAfter = some (after.experience user).level
  ungranted : amount ≤ 0 → completion.levelBefore = none ∧ completion.levelAfter = none
  leveledUp : completion.leveledUp = true ↔ (before.experience user).level < (after.experience user).level

/-- What is reported of a request's job agrees with the books. -/
structure Agrees (completion : Completion) (r : Request) (shares : Bool) (job : Job) (before after : Books) : Prop where
  steps : completion.StepsAgree r.pinned job.mission.guild.isSome
  feed : completion.FeedAgrees shares job.target before after
  progress : completion.ProgressAgrees r job.mission.id after
  levels : completion.LevelsAgree r.user job.mission.experience before after

variable {r : Request} {m : Mission} {job : Job} {before after books books' : Books} {target : Target}
variable {ctx ctx' : Context} {last report : Report CompletionError} {completion : Completion}

/-! ### Steps -/

/-- The steps that are executed, by what is completed and whether it is shared. -/
def executedBy (pinned guild shared : Bool) : List String :=
  [Loading.step.name, UserReward.step.name, if pinned then Closing.step.name else Advance.step.name] ++
    ((if guild then [GuildReward.step.name] else []) ++ if shared then [Sharing.step.name] else [])

def skippedBy (pinned guild : Bool) : List String :=
  (if pinned then Advance.step.name else Closing.step.name) :: if guild then [] else [GuildReward.step.name]

theorem perm_stepNames (pinned guild shared : Bool) :
    (executedBy pinned guild shared ++ skippedBy pinned guild ++
      if shared then [] else [Sharing.step.name]).Perm Operation.stepNames := by
  revert pinned guild shared
  decide

theorem sublist_stepNames (pinned guild shared : Bool) :
    (executedBy pinned guild shared).Sublist Operation.stepNames := by
  revert pinned guild shared
  decide

theorem mem_executedBy (pinned guild shared : Bool) :
    (Advance.step.name ∈ executedBy pinned guild shared ↔ pinned = false) ∧
      (Closing.step.name ∈ executedBy pinned guild shared ↔ pinned = true) ∧
      (GuildReward.step.name ∈ executedBy pinned guild shared ↔ guild = true) := by
  revert pinned guild shared
  decide

theorem stepsAgree {pinned guild shared : Bool} (hexecuted : completion.executedSteps = executedBy pinned guild shared)
    (hskipped : completion.skippedSteps = skippedBy pinned guild) (herror : completion.feedError.isSome = !shared) :
    completion.StepsAgree pinned guild := by
  obtain ⟨hadvanced, hclosed, hguild⟩ := mem_executedBy pinned guild shared
  rw [← hexecuted] at hadvanced hclosed hguild
  refine ⟨?_, ?_, hadvanced, hclosed, hguild⟩
  · have hperm := perm_stepNames pinned guild shared
    rw [hexecuted, hskipped, herror]
    cases shared <;> exact hperm
  · rw [hexecuted]
    exact sublist_stepNames pinned guild shared

theorem jobReport_eq (hjob : before.Selects r job) (shared : Bool) :
    (jobReport job).executed ++ (if shared then [Sharing.step.name] else []) =
        executedBy r.pinned job.mission.guild.isSome shared ∧
      (jobReport job).skipped = skippedBy r.pinned job.mission.guild.isSome ∧
      (jobReport job).optionalFailures = [] := by
  have hguild (m : Mission) : guildReport m =
      ⟨if m.guild.isSome then [GuildReward.step.name] else [], if m.guild.isSome then [] else [GuildReward.step.name],
        []⟩ := by
    rw [guildReport]
    split <;> rfl
  cases job with
  | regular m p x =>
    rw [hjob.1, jobReport, closingReport, hguild]
    exact ⟨rfl, rfl, rfl⟩
  | pinned m i =>
    rw [hjob.1, jobReport, closingReport, hguild]
    exact ⟨rfl, rfl, rfl⟩

/-! ### Sharing -/

namespace Shared

theorem aside (h : Shared ctx m target books last ctx' books') :
    ctx'.brief = ctx.brief ∧ ctx'.shown = { ctx.shown with feed := ctx'.feed } ∧ books.SharingAside books' := by
  cases h with
  | unasked => exact ⟨rfl, rfl, .refl books⟩
  | withdrawn hshare h =>
    cases h
    exact ⟨rfl, rfl, by constructor <;> rfl⟩
  | published hshare h =>
    cases h with | @shared n hn =>
    have hpublished : books.SharingAside
        { books with feeds := books.feeds ++ [⟨n, ctx.request.user, m.id⟩], nextFeed := n + 1 } := by
      constructor <;> rfl
    exact ⟨rfl, rfl, hpublished.trans (.setSharedFlag _ target true)⟩

theorem feed (h : Shared ctx m target books last ctx' books') (hfresh : ctx.feed = none)
    (hnumbered : books.Numbered) :
    (∃ entry : Feed, ctx'.feed = some entry.id ∧ books'.feeds = books.feeds ++ [entry] ∧
      books'.sharedFlag target = some true) ∨ ctx'.feed = none ∧ books'.feeds = books.feeds := by
  cases h with
  | unasked => exact .inr ⟨hfresh, rfl⟩
  | published hshare h =>
    obtain ⟨⟨entry, hfeeds, -, -, -, hfeed⟩, hflag, -⟩ := h.of_success hnumbered
    exact .inl ⟨entry, hfeed, hfeeds, hflag⟩
  | withdrawn hshare h =>
    obtain ⟨hfeeds, -, rfl⟩ := h.of_failure
    exact .inr ⟨hfresh, hfeeds⟩

theorem reported (h : Shared ctx m target books last ctx' books') (hfresh : ctx.feed = none) :
    ∃ shared : Bool, last.executed = (if shared then [Sharing.step.name] else []) ∧ last.skipped = [] ∧
      (last.optionalFailures.map (·.message)).head?.isSome = !shared ∧
      (shared = false ↔ ctx.request.share = true ∧ ctx'.feed = none) := by
  cases h with
  | unasked hshare => exact ⟨true, rfl, rfl, rfl, by simp [hshare]⟩
  | published hshare h =>
    cases h
    exact ⟨true, rfl, rfl, rfl, by simp [Context.withFeed]⟩
  | withdrawn hshare h =>
    cases h
    exact ⟨false, rfl, rfl, rfl, by simp [hshare, hfresh]⟩

theorem whole (h : Shared ctx m target books last ctx' books') (hfresh : ctx.feed = none)
    (hjob : before.Selects r job) : ∃ shared : Bool,
      ((jobReport job).append last).executed = executedBy r.pinned job.mission.guild.isSome shared ∧
      ((jobReport job).append last).skipped = skippedBy r.pinned job.mission.guild.isSome ∧
      (((jobReport job).append last).optionalFailures.map (·.message)).head?.isSome = !shared ∧
      (shared = false ↔ ctx.request.share = true ∧ ctx'.feed = none) := by
  obtain ⟨shared, hexecuted, hskipped, herror, hshared⟩ := h.reported hfresh
  obtain ⟨hjobExecuted, hjobSkipped, hnoFailures⟩ := jobReport_eq hjob shared
  refine ⟨shared, ?_, ?_, ?_, hshared⟩
  · rw [Report.append, hexecuted, hjobExecuted]
  · rw [Report.append, hskipped, List.append_nil, hjobSkipped]
  · rw [Report.append, hnoFailures, List.nil_append, herror]

end Shared

theorem feedAgrees {shares : Bool} (hfeed : (∃ entry : Feed, completion.feed = some entry.id ∧
      after.feeds = before.feeds ++ [entry] ∧ after.sharedFlag target = some true) ∨
      completion.feed = none ∧ after.feeds = before.feeds)
    (herror : completion.feedError.isSome = true ↔ shares = true ∧ completion.feed = none) :
    completion.FeedAgrees shares target before after := by
  obtain ⟨entry, hsome, hfeeds, hflag⟩ | ⟨hnone, hfeeds⟩ := hfeed
  · refine ⟨fun id => ?_, fun _ => hflag, fun hnone => ?_, herror⟩
    · rw [hsome, hfeeds]
      constructor
      · intro hid
        exact ⟨entry, Option.some.inj hid, rfl⟩
      · rintro ⟨entry', rfl, hsame⟩
        rw [List.singleton_inj.1 (List.append_cancel_left hsame)]
    · cases hsome.symm.trans hnone
  · refine ⟨fun id => ?_, fun hsome => ?_, fun _ => hfeeds, herror⟩
    · simp [hnone, hfeeds]
    · simp [hnone] at hsome

/-! ### Levels and progress -/

theorem levelsAgree {user : String} {amount : Int}
    (htotal : after.userTotal user = (before.rewarded user amount).userTotal user)
    (hbefore : completion.levelBefore = (before.levels user amount).levelBefore)
    (hafter : completion.levelAfter = (before.levels user amount).levelAfter)
    (hleveledUp : completion.leveledUp = match completion.levelBefore, completion.levelAfter with
      | some before, some after => decide (before < after)
      | _, _ => false) : completion.LevelsAgree user amount before after := by
  have hexperience : after.experience user = (before.rewarded user amount).experience user := by
    rw [Books.experience, Books.experience, htotal]
  by_cases hgranted : amount ≤ 0
  · rw [Books.levels, if_pos hgranted] at hbefore hafter
    refine ⟨fun hearned => absurd hgranted (Int.not_le.2 hearned), fun _ => ⟨hbefore, hafter⟩, ?_⟩
    rw [hexperience, Books.rewarded, if_pos hgranted, hleveledUp, hbefore]
    simp
  · rw [Books.levels, if_neg hgranted, ← hexperience] at hbefore hafter
    refine ⟨fun _ => ⟨hbefore, hafter⟩, fun hnone => absurd hnone hgranted, ?_⟩
    rw [hleveledUp, hbefore, hafter]
    simp

theorem progressAgrees (hkeyed : before.Keyed) (hjob : before.Selects r job)
    (haside : (credited before r.user job).SharingAside after)
    (hprogress : completion.progress = progressAfter (before.rewarded r.user job.mission.experience) job) :
    completion.ProgressAgrees r job.mission.id after := by
  cases job with
  | regular m p x =>
    refine ⟨fun _ => ⟨(before.rewarded r.user m.experience).advanced m p x, ?_, hprogress⟩, fun hpinned => ?_⟩
    · have hp : (before.rewarded r.user m.experience).participantOf m.id r.user = some p :=
        (hjob.rewarded r.user m.experience).2.2.1
      have hparticipants : after.participants =
          ((before.rewarded r.user m.experience).closed (.regular m p x)).participants := by
        rw [haside.participants, credited, Books.guildCredited_eq]
        rfl
      have hclosed : ((before.rewarded r.user m.experience).closed (.regular m p x)).participantOf m.id r.user =
          some ((before.rewarded r.user m.experience).advanced m p x) :=
        Books.participantOf_putParticipant (hkeyed.rewarded ..) hp rfl rfl rfl
      rw [Books.participantOf, hparticipants]
      exact hclosed
    · exact absurd (hjob.1.symm.trans hpinned) Bool.false_ne_true
  | pinned m i => exact ⟨fun hregular => absurd (hregular.symm.trans hjob.1) Bool.false_ne_true, fun _ => hprogress⟩

/-! ### All fields -/

theorem feeds_credited (books : Books) (user : String) (job : Job) :
    (credited books user job).feeds = books.feeds := by
  rw [credited_eq]
  cases job <;> rfl

theorem agrees_of_reported (hkeyed : before.Keyed) (hnumbered : before.Numbered)
    (h : Reported r before report ctx after) (hcompletion : ofRun ctx report = .ok completion) :
    ∃ job, before.Selects r job ∧ before.RecordCompleted after job ∧ completion.Agrees r r.share job before after := by
  obtain ⟨job, hjob, ctx₀, last, ⟨hbrief₀, ⟨-, hshown₀⟩, -⟩, rfl, hshared⟩ := h
  obtain ⟨hbrief, hshown, haside⟩ := hshared.aside
  have hmission : ctx.mission = some job.mission := congrArg Context.Brief.mission (hbrief.trans hbrief₀)
  have hshare : ctx₀.request.share = r.share := congrArg (fun brief => brief.request.share) hbrief₀
  have hcredited : before.Credited after r.user job := credited_credits hkeyed hjob haside
  rw [ofRun, Context.missionId, hmission, Option.map_some] at hcompletion
  -- from here on the completion is written out, in fields of the context and of the report
  obtain rfl := Except.ok.inj hcompletion
  rw [hshown₀] at hshown
  have hfresh : ctx₀.feed = none :=
    (congrArg Context.Shown.feed hshown₀).trans (congrArg Context.Shown.feed (before.levels_eq_levels _ _))
  obtain ⟨shared, hexecuted, hskipped, herror, hunshared⟩ := hshared.whole hfresh hjob
  refine ⟨job, hjob, hcredited.record, stepsAgree hexecuted hskipped herror, feedAgrees ?_ ?_,
    progressAgrees hkeyed hjob haside (congrArg Context.Shown.progress hshown),
    levelsAgree ?_ (congrArg Context.Shown.levelBefore hshown) (congrArg Context.Shown.levelAfter hshown) rfl⟩
  · rw [← feeds_credited before r.user job]
    exact hshared.feed hfresh (((hnumbered.rewarded _ _).closed _).guildCredited _)
  · rw [herror, ← hshare, ← hunshared, Bool.not_eq_true']
  · rw [hcredited.userTotal, Books.userTotal_rewarded]

theorem obeys_complete_reported (hkeyed : books.Keyed) (hnumbered : books.Numbered) (o : Operation) (r : Request) :
    (o.complete r).Obeys (Books.sparing (fun _ => True) Sharing.Deletes Context) (fun outcome after =>
      ∀ completion audit, outcome = .ok (.ok completion, audit) → ∃ report ctx,
        Reported (o.effective r) books report ctx after ∧ ofRun ctx report = .ok completion) books := by
  have hcompletes : Run.Completes alone o.saga.policyFor o.saga.steps
      (fun ctx books' => ctx = .start (o.effective r) ∧ books' = books) (Reported (o.effective r) books) := by
    rw [o.steps_saga]
    exact completes_all hkeyed hnumbered
  rw [o.complete_eq_concluded, Program.obeys_bind]
  refine Program.Obeys.mono (hcompletes _ _ ⟨rfl, rfl⟩) fun run after hrun => ?_
  intro completion audit hcompletion
  obtain ⟨_ | ⟨_ | report, audit'⟩, ctx⟩ := run
  · cases hcompletion
  · cases hcompletion
  · exact ⟨report, ctx, hrun report rfl, (Prod.mk.inj (Except.ok.inj hcompletion)).1⟩

end Completion

/-- Whatever was overcome on the way: what a completion that goes through reports beside the rewards agrees with the
books. Each step is reported once, the entry is the one that was added, and progress and levels are those that are
stored. -/
theorem Operation.complete_agrees (o : Operation) (r : Request) {S : Type} {server : Server S} {view : S → Books}
    {good : S → Prop} (hserver : server.FailsCleanly (fun _ => True) view good)
    (hdelete : ∀ feed s, good s → ((server (.deleteFeed feed)).run s).1 = .ok ()) {s s' : S} (hs : good s)
    (hkeyed : (view s).Keyed) (hfeeds : ∀ f ∈ (view s).feeds, f.id < (view s).nextFeed) {completion : Completion}
    {audit : AuditLog} (hrun : ((o.complete r).serve server).run s = (.ok (.ok completion, audit), s')) :
    ∃ job, (view s).Selects r job ∧ (view s).RecordCompleted (view s') job ∧
      completion.Agrees r (r.share && o.settings.feedEnabled) job (view s) (view s') := by
  have hend := (Completion.obeys_complete_reported hkeyed hfeeds o r).serve
    (hserver.governs_sparing (Sharing.isOk_of_deletes hdelete) Context) hs
  rw [hrun] at hend
  obtain ⟨report, ctx, hreported, hcompletion⟩ := hend completion audit rfl
  obtain ⟨job, hjob, hrecord, hagrees⟩ := Completion.agrees_of_reported hkeyed hfeeds hreported hcompletion
  exact ⟨job, hjob.of_effective, hrecord, { hagrees with progress := { hagrees.progress with } }⟩

namespace Fixture

/-- The hampered world, in which marking a record as shared fails once as well. -/
def unmarked : World :=
  (guild ++ [Disturbance.failCounts 1, Disturbance.failGuildAdditions 1, Disturbance.failFlagUpdates 1]).foldl
    World.disturb {}

end Fixture

open Fixture in
theorem Operation.complete_agrees_unmarked : ∃ completion audit w' job,
    completing unmarked = (.ok (.ok completion, audit), w') ∧
      completion.Agrees request true job unmarked.books w'.books ∧ completion.feed = none ∧
      completion.feedError.isSome = true := by
  have hearnings : earnings unmarked = some (30, 20) := by decide +kernel
  have hwithdrawn : (completing unmarked).1.toOption.any (·.1.toOption.any (·.feed.isNone)) = true := by
    decide +kernel
  have hfeeds : ∀ f ∈ unmarked.books.feeds, f.id < unmarked.books.nextFeed := by decide +kernel
  obtain ⟨completion, audit, w', hrun, -⟩ := exists_completing hearnings
  obtain ⟨job, -, -, hagrees⟩ := patient.complete_agrees request (World.server_failsCleanly _) (fun _ _ _ => rfl)
    (Faults.hands_any _) (World.keyed_foldl_disturb .empty _) hfeeds hrun
  rw [hrun] at hwithdrawn
  have hnone : completion.feed = none := Option.isNone_iff_eq_none.1 hwithdrawn
  exact ⟨completion, audit, w', job, hrun, hagrees, hnone, hagrees.feed.error.2 ⟨rfl, hnone⟩⟩

end Missions
