import Missions.Proofs.Completion.Undisturbed.Closing
import Missions.Proofs.Completion.Undisturbed.Loading
import Missions.Proofs.Completion.Undisturbed.Rewards

/-! What the stages of a completion come to while nobody else touches the books, from the last stage back to the
first: the books with everything credited, or the books as they were but for what the error reports. -/

namespace Missions

namespace Books

variable (books : Books)

theorem Keyed.rewarded {books : Books} (h : books.Keyed) (user : String) (amount : Int) :
    (books.rewarded user amount).Keyed := by
  rw [Books.rewarded]
  split
  · exact h
  · exact ⟨h.missions, h.participants, h.executions, h.instances⟩

theorem Selects.rewarded {books : Books} {r : Request} {job : Job} (h : books.Selects r job) (user : String)
    (amount : Int) : (books.rewarded user amount).Selects r job := by
  rw [Books.rewarded]
  split
  · exact h
  · cases job <;> exact h

theorem closed_with_userTotals (totals : Table String Int) (job : Job) :
    ({ books with userTotals := totals } : Books).closed job = { books.closed job with userTotals := totals } := by
  cases job <;> rfl

def guildCredited (m : Mission) : Books :=
  match m.guild with
  | some guild => books.guildRewarded guild m.guildExperience
  | none => books

end Books

namespace Completion

open Procedure

variable {may : CompletionError → Prop} {policy : CompletionStep → RetryPolicy}
variable {r : Request} {m : Mission} {job : Job} {books : Books} {W : Context.RewardMarks → Prop}

/-! ### The last stages -/

def Ended (r : Request) (m : Mission) (books : Books) (ctx : Context) (books' : Books) : Prop :=
  ctx.brief = .of r m ∧ books.SharingAside books'

theorem visits_sharing {U : Aborted CompletionError → Context → Books → Prop} :
    Run.Visits (Books.protocol may Context) policy [Sharing.step] (Ended r m books) (Ended r m books) U := by
  refine visits_passing rfl rfl (fun _ _ _ => rfl) fun ctx books' h => ?_
  exact Sharing.meets_publish.mono fun _ _ _ hpublish => ⟨hpublish.1.trans h.1, h.2.trans hpublish.2⟩

/-- Where a run stands: what it is about, what it has loaded and kept, and the books. -/
def Stage (r : Request) (m : Mission)
    (C : Context.Records → Context.RewardMarks → Context.ClosingMarks → Prop) (books : Books) (ctx : Context)
    (books' : Books) : Prop :=
  ctx.brief = .of r m ∧ C ctx.records ctx.reward ctx.closing ∧ books' = books

/-- The run is to be undone from a stage on, and so far nothing could not be. -/
def StoppedAt (may : CompletionError → Prop) (stage : Context → Books → Prop) (names : List String)
    (cause : Option CompletionError) (ctx : Context) (books' : Books) : Prop :=
  stage ctx books' ∧ names = [] ∧ ∃ e, cause = some e ∧ may e

theorem applies_guildReward {ctx : Context} (hbrief : ctx.brief = .of r m) :
    GuildReward.step.applies ctx = m.guild.isSome := congrArg Context.Brief.isGuildMission hbrief

theorem meets_guildReward {ctx : Context} (hbrief : ctx.brief = .of r m) {guild : Int} (hguild : m.guild = some guild) :
    GuildReward.grant.Meets (Books.protocol may Context) (Either
      (fun ctx' books' => ctx'.brief = ctx.brief ∧ ctx'.records = ctx.records ∧ ctx'.reward = ctx.reward ∧
        ctx'.closing = ctx.closing ∧ books' = books.guildCredited m)
      fun e ctx' books' => ctx'.brief = ctx.brief ∧ ctx'.records = ctx.records ∧ ctx'.reward = ctx.reward ∧
        ctx'.closing = ctx.closing ∧ may e ∧ books' = books) ctx books := by
  have hguild' : ctx.guild = some guild := (congrArg Context.Brief.guild hbrief).trans hguild
  have hearned : ctx.guildEarned = m.guildExperience := by
    have h := congrArg Context.Brief.guildEarned hbrief
    exact h.trans (by rw [Context.Brief.of, Mission.isGuildMission, hguild, Option.isSome_some, if_pos rfl])
  rw [Books.guildCredited, hguild, ← hearned]
  exact GuildReward.meets_grant hguild' (congrArg Context.Brief.mission hbrief)

theorem visits_ending {C : Context.Records → Context.RewardMarks → Context.ClosingMarks → Prop} :
    Run.Visits (Books.protocol may Context) policy [GuildReward.step, Sharing.step] (Stage r m C books)
      (Ended r m (books.guildCredited m)) (Undone (StoppedAt may (Stage r m C books))) := by
  cases hguild : m.guild with
  | none =>
    rw [Books.guildCredited, hguild]
    refine .skip (fun ctx books' h => ?_)
      (visits_sharing.mono (fun ctx books' h => ?_) (fun _ _ h => h) fun _ _ _ h => h)
    · rw [applies_guildReward h.1, hguild, Option.isSome_none]
    · exact ⟨h.1, h.2.2 ▸ .refl books⟩
  | some guild =>
    refine visits_settled (F := fun e ctx books' => Stage r m C books ctx books' ∧ may e)
      (V := fun _ _ _ _ => False) rfl rfl rfl (fun ctx books' h => ?_) ?_ (fun _ _ _ _ h => h.1) visits_sharing
      (fun _ _ _ _ h => h.elim) fun e ctx books' h => ⟨h.1, rfl, e, rfl, h.2⟩
    · rw [applies_guildReward h.1, hguild, Option.isSome_some]
    · rintro ctx _ ⟨hbrief, hC, rfl⟩
      refine (meets_guildReward hbrief hguild).mono fun result ctx' books' hgrant => ?_
      cases result with
      | ok =>
        obtain ⟨hbrief', -, -, -, rfl⟩ := hgrant
        exact ⟨hbrief'.trans hbrief, .refl _⟩
      | error e =>
        obtain ⟨hbrief', hrecords, hreward, hclosing, he, rfl⟩ := hgrant
        refine ⟨⟨hbrief'.trans hbrief, ?_, rfl⟩, he⟩
        rw [hrecords, hreward, hclosing]
        exact hC

/-! ### Closing the record -/

/-- What is left of a closed record when it could not be opened again: an execution and its participant are put back
one by one. -/
def PartlyOpen (before : Books) (job : Job) (after : Books) : Prop :=
  match job with
  | .regular _ p x => after = before.closed job ∨ after = (before.closed job).putExecution x ∨
      after = (before.closed job).putParticipant p
  | .pinned .. => after = before.closed job

/-- The books after a run was undone from the closing of the record on, with the names of the steps that could not be
undone and the error that stopped the run. -/
inductive Reopened (may : CompletionError → Prop) (before : Books) (job : Job) :
    List String → Option CompletionError → Books → Prop
  | clean {e : CompletionError} (he : may e) : Reopened may before job [] (some e) before
  | partly {e : CompletionError} (he : may e) {after : Books} (h : PartlyOpen before job after) :
      Reopened may before job [job.step.name] (some e) after
  | stuck {m : Mission} {p : Participant} {x : Execution} (hjob : job = .regular m p x) {e : CompletionError}
      (he : e.leftClaimed = some x.id) :
      Reopened may before job [] (some e) (before.putExecution { x with status := .completed })

/-- What holds of a run that was undone from the closing of the record on. -/
def Unclosed (may : CompletionError → Prop) (r : Request) (W : Context.RewardMarks → Prop) (books : Books) (job : Job)
    (names : List String) (cause : Option CompletionError) (ctx : Context) (books' : Books) : Prop :=
  ctx.brief = .of r job.mission ∧ W ctx.reward ∧ Reopened may books job names cause books'

def ExecutionClosed (W : Context.RewardMarks → Prop) (books : Books) (m : Mission) (p : Participant) (x : Execution)
    (records : Context.Records) (reward : Context.RewardMarks) (closing : Context.ClosingMarks) : Prop :=
  records.execution.map (·.id) = some x.id ∧ W reward ∧ closing = Advance.marks p (books.advanced m p x)

theorem meets_reopen_execution (hkeyed : books.Keyed) {p : Participant} {x : Execution}
    (hjob : books.Selects r (.regular m p x)) {names : List String} {cause : Option CompletionError} {ctx : Context}
    {books' : Books} (h : StoppedAt may (Stage r m (ExecutionClosed W books m p x) (books.closed (.regular m p x)))
      names cause ctx books') :
    Advance.revert.Meets (Books.protocol may Context) (Either (Unclosed may r W books (.regular m p x) names cause)
      fun _ => Unclosed may r W books (.regular m p x) (names ++ [Advance.step.name]) cause) ctx books' := by
  obtain ⟨⟨hbrief, ⟨hid, hW, hmarks⟩, rfl⟩, rfl, e, rfl, he⟩ := h
  obtain ⟨-, -, hp, hx⟩ := hjob
  obtain ⟨hopen, -, hstatus⟩ := Books.executionInProgress_eq_some hkeyed hx
  obtain ⟨hstored, -, -⟩ := Books.participantOf_eq_some hkeyed hp
  have huser : ctx.request.user = r.user := congrArg (fun brief => brief.request.user) hbrief
  have hfound : (books.closed (.regular m p x)).participantOf m.id ctx.request.user = some (books.advanced m p x) := by
    rw [huser]
    exact Books.participantOf_putParticipant hkeyed hp rfl rfl rfl
  have hback : ((books.closed (.regular m p x)).putExecution x).putParticipant p = books := by
    have hexecution : (books.putExecution { x with status := .completed }).putExecution x = books :=
      Books.putExecution_putExecution hopen rfl
    have hparticipant : (books.putParticipant (books.advanced m p x)).putParticipant p = books :=
      Books.putParticipant_putParticipant hstored rfl
    calc ((books.closed (.regular m p x)).putExecution x).putParticipant p
      _ = (((books.putExecution { x with status := .completed }).putExecution x).putParticipant
          (books.advanced m p x)).putParticipant p := rfl
      _ = books := by rw [hexecution, hparticipant]
  refine (Advance.meets_revert (congrArg Context.Brief.mission hbrief) hid hmarks hstatus
    (Table.get?_insert_self _ _ _) rfl hfound (Table.get?_insert_self _ _ _)).mono fun result ctx' books' hrevert => ?_
  cases result with
  | ok =>
    obtain ⟨hbrief', hreward, rfl⟩ := hrevert
    refine ⟨hbrief'.trans hbrief, hreward ▸ hW, ?_⟩
    rw [hback]
    exact .clean he
  | error e' =>
    obtain ⟨hbrief', hreward, hpartly⟩ := hrevert
    exact ⟨hbrief'.trans hbrief, hreward ▸ hW, .partly he hpartly⟩

theorem visits_advance (hmay : ∀ e : CompletionError, e.leftClaimed = none → may e) (hkeyed : books.Keyed)
    {p : Participant} {x : Execution} (hjob : books.Selects r (.regular m p x)) :
    Run.Visits (Books.protocol may Context) policy [Advance.step, Closing.step, GuildReward.step, Sharing.step]
      (Stage r m (fun records reward _ => records = (Job.regular m p x).records ∧ W reward) books)
      (Ended r m ((books.closed (.regular m p x)).guildCredited m))
      (Undone (Unclosed may r W books (.regular m p x))) := by
  have hregular {ctx : Context} (hbrief : ctx.brief = .of r m) : ctx.request.pinned = false :=
    (congrArg (fun brief => brief.request.pinned) hbrief).trans hjob.1
  obtain ⟨hopen, -, hstatus⟩ := Books.executionInProgress_eq_some hkeyed hjob.2.2.2
  refine visits_settled (S := Stage r m (ExecutionClosed W books m p x) (books.closed (.regular m p x)))
    (F := fun e ctx books' => ctx.brief = .of r m ∧ ctx.records = (Job.regular m p x).records ∧ W ctx.reward ∧
      (may e ∧ books' = books ∨
        e.leftClaimed = some x.id ∧ books' = books.putExecution { x with status := .completed }))
    rfl rfl rfl (fun ctx books' h => ?_) ?_ ?_ (.skip (fun ctx books' h => hregular h.1) visits_ending)
    (fun names cause ctx books' h => meets_reopen_execution hkeyed hjob h) ?_
  · exact congrArg not (hregular h.1)
  · rintro ctx _ ⟨hbrief, ⟨hrecords, hW⟩, rfl⟩
    refine (Advance.meets_update hmay (congrArg Context.Brief.mission hbrief)
      (congrArg Context.Records.participant hrecords) (congrArg Context.Records.execution hrecords) hopen
      hstatus).mono fun result ctx' books' hupdate => ?_
    cases result with
    | ok =>
      obtain ⟨hbrief', hreward, hmarks, hexecution, rfl⟩ := hupdate
      exact ⟨hbrief'.trans hbrief, ⟨congrArg (Option.map (·.id)) hexecution, hreward ▸ hW, hmarks⟩, rfl⟩
    | error e =>
      obtain ⟨hbrief', hreward, hrecords', hbooks⟩ := hupdate
      exact ⟨hbrief'.trans hbrief, hrecords'.trans hrecords, hreward ▸ hW, hbooks⟩
  · rintro e ctx books' hpasses ⟨hbrief, hrecords, hW, ⟨he, rfl⟩ | ⟨he, -⟩⟩
    · exact ⟨hbrief, ⟨hrecords, hW⟩, rfl⟩
    · cases e <;> simp [CompletionError.leftClaimed, losesClaim] at he hpasses
  · rintro e ctx books' ⟨hbrief, hrecords, hW, ⟨he, rfl⟩ | ⟨he, rfl⟩⟩
    · exact ⟨hbrief, hW, .clean he⟩
    · exact ⟨hbrief, hW, .stuck rfl he⟩

def InstanceClosed (W : Context.RewardMarks → Prop) (i : Instance) (records : Context.Records)
    (reward : Context.RewardMarks) (closing : Context.ClosingMarks) : Prop :=
  records.pinned.map (·.id) = some i.id ∧ W reward ∧ closing.targetBefore = some .inProgress ∧
    closing.targetAfter = some .completed

theorem meets_reopen_instance (hkeyed : books.Keyed) {i : Instance} (hjob : books.Selects r (.pinned m i))
    {names : List String} {cause : Option CompletionError} {ctx : Context} {books' : Books}
    (h : StoppedAt may (Stage r m (InstanceClosed W i) (books.closed (.pinned m i))) names cause ctx books') :
    Closing.revert.Meets (Books.protocol may Context) (Either (Unclosed may r W books (.pinned m i) names cause)
      fun _ => Unclosed may r W books (.pinned m i) (names ++ [Closing.step.name]) cause) ctx books' := by
  obtain ⟨⟨hbrief, ⟨hid, hW, hbefore, hafter⟩, rfl⟩, rfl, e, rfl, he⟩ := h
  have hi : books.instances.get? i.id = some i := hjob.stored hkeyed
  obtain ⟨-, -, hstatus, -⟩ := hjob
  have hback : (books.closed (.pinned m i)).putInstance i = books := Books.putInstance_putInstance hi rfl
  refine (Closing.meets_revert hid hbefore hafter hstatus (Table.get?_insert_self _ _ _)).mono
    fun result ctx' books' hrevert => ?_
  cases result with
  | ok =>
    obtain ⟨hbrief', hreward, rfl⟩ := hrevert
    refine ⟨hbrief'.trans hbrief, hreward ▸ hW, ?_⟩
    rw [hback]
    exact .clean he
  | error e' =>
    obtain ⟨hbrief', hreward, rfl⟩ := hrevert
    exact ⟨hbrief'.trans hbrief, hreward ▸ hW, .partly he rfl⟩

theorem visits_close (hkeyed : books.Keyed) {i : Instance} (hjob : books.Selects r (.pinned m i)) :
    Run.Visits (Books.protocol may Context) policy [Advance.step, Closing.step, GuildReward.step, Sharing.step]
      (Stage r m (fun records reward _ => records = (Job.pinned m i).records ∧ W reward) books)
      (Ended r m ((books.closed (.pinned m i)).guildCredited m)) (Undone (Unclosed may r W books (.pinned m i))) := by
  have hpinned {ctx : Context} (hbrief : ctx.brief = .of r m) : ctx.request.pinned = true :=
    (congrArg (fun brief => brief.request.pinned) hbrief).trans hjob.1
  have hi : books.instances.get? i.id = some i := hjob.stored hkeyed
  refine .skip (fun ctx books' h => congrArg not (hpinned h.1))
    (visits_settled (S := Stage r m (InstanceClosed W i) (books.closed (.pinned m i)))
      (F := fun e ctx books' => Stage r m (fun records reward _ => records = (Job.pinned m i).records ∧ W reward) books
        ctx books' ∧ may e)
      rfl rfl rfl (fun ctx books' h => hpinned h.1) ?_ (fun e ctx books' _ h => h.1) visits_ending
      (fun names cause ctx books' h => meets_reopen_instance hkeyed hjob h) ?_)
  · rintro ctx _ ⟨hbrief, ⟨hrecords, hW⟩, rfl⟩
    refine (Closing.meets_close (congrArg Context.Records.pinned hrecords) hi hjob.2.2.1).mono
      fun result ctx' books' hclose => ?_
    cases result with
    | ok =>
      obtain ⟨hbrief', hreward, hbefore, hafter, hinstance, rfl⟩ := hclose
      exact ⟨hbrief'.trans hbrief, ⟨congrArg (Option.map (·.id)) hinstance, hreward ▸ hW, hbefore, hafter⟩, rfl⟩
    | error e =>
      obtain ⟨hbrief', hreward, hrecords', he, rfl⟩ := hclose
      exact ⟨⟨hbrief'.trans hbrief, ⟨hrecords'.trans hrecords, hreward ▸ hW⟩, rfl⟩, he⟩
  · rintro e ctx books' ⟨⟨hbrief, ⟨-, hW⟩, rfl⟩, he⟩
    exact ⟨hbrief, hW, .clean he⟩

theorem visits_closing (hmay : ∀ e : CompletionError, e.leftClaimed = none → may e) (hkeyed : books.Keyed)
    (hjob : books.Selects r job) :
    Run.Visits (Books.protocol may Context) policy [Advance.step, Closing.step, GuildReward.step, Sharing.step]
      (Stage r job.mission (fun records reward _ => records = job.records ∧ W reward) books)
      (Ended r job.mission ((books.closed job).guildCredited job.mission)) (Undone (Unclosed may r W books job)) := by
  cases job with
  | regular m p x => exact visits_advance hmay hkeyed hjob
  | pinned m i => exact visits_close hkeyed hjob

/-! ### The user's reward -/

theorem Reopened.aside {names : List String} {cause : Option CompletionError} {after : Books}
    (h : Reopened may books job names cause after) : after = { books with
      executions := after.executions, participants := after.participants, instances := after.instances } := by
  cases h with
  | clean => rfl
  | stuck => rfl
  | partly he h =>
    cases job with
    | regular m p x => obtain rfl | rfl | rfl := h <;> rfl
    | pinned m i =>
      obtain rfl := h
      rfl

/-- The books with the user's total as it was before a grant, if anything was granted. -/
def tookBack (before : Books) (user : String) (amount : Int) (after : Books) : Books :=
  if amount ≤ 0 then after else after.setUserTotal user (before.userTotal user)

/-- What remains of a completion of a request that was aborted, with the names of the steps that could not be undone
and the error that stopped it. -/
inductive Remains (may : CompletionError → Prop) (r : Request) (before : Books) :
    List String → Option CompletionError → Books → Prop
  | untouched {e : CompletionError} (he : may e) : Remains may r before [] (some e) before
  | takenBack {job : Job} (hjob : before.Selects r job) {names : List String} {cause : Option CompletionError}
      {after : Books} (h : Reopened may (before.rewarded r.user job.mission.experience) job names cause after) :
      Remains may r before names cause (tookBack before r.user job.mission.experience after)
  | notTakenBack {job : Job} (hjob : before.Selects r job) (hearned : 0 < job.mission.experience)
      {names : List String} {cause : Option CompletionError} {after : Books}
      (h : Reopened may (before.rewarded r.user job.mission.experience) job names cause after) :
      Remains may r before (names ++ [UserReward.step.name]) cause after

theorem Remains.of_effective {o : Operation} {before after : Books} {names : List String}
    {cause : Option CompletionError} (h : Remains may (o.effective r) before names cause after) :
    Remains may r before names cause after := by
  cases h with
  | untouched he => exact .untouched he
  | takenBack hjob h => exact .takenBack hjob.of_effective h
  | notTakenBack hjob hearned h => exact .notTakenBack hjob.of_effective hearned h

def credited (before : Books) (user : String) (job : Job) : Books :=
  ((before.rewarded user job.mission.experience).closed job).guildCredited job.mission

theorem meets_takeBack (hjob : books.Selects r job) {names : List String} {cause : Option CompletionError}
    {ctx : Context} {books' : Books}
    (h : Unclosed may r (·.Tell (books.userTotal r.user) job.mission.experience)
      (books.rewarded r.user job.mission.experience) job names cause ctx books') :
    UserReward.revert.Meets (Books.protocol may Context) (Either (fun _ => Remains may r books names cause)
      fun _ _ => Remains may r books (names ++ [UserReward.step.name]) cause) ctx books' := by
  obtain ⟨hbrief, htell, hreopened⟩ := h
  have huser : ctx.request.user = r.user := congrArg (fun brief => brief.request.user) hbrief
  have htakenBack := Remains.takenBack hjob hreopened
  by_cases hearned : job.mission.experience ≤ 0
  · rw [Context.RewardMarks.Tell, if_pos hearned] at htell
    rw [tookBack, if_pos hearned] at htakenBack
    refine (UserReward.meets_revert_none htell).mono fun result ctx' books' hrevert => ?_
    cases result with
    | ok => exact hrevert.2 ▸ htakenBack
    | error => exact hrevert.elim
  · rw [Context.RewardMarks.Tell, if_neg hearned] at htell
    rw [tookBack, if_neg hearned] at htakenBack
    have htotal : books'.userTotal ctx.request.user = books.userTotal r.user + job.mission.experience := by
      rw [huser, hreopened.aside, Books.rewarded, if_neg hearned]
      exact Books.userTotal_setUserTotal_self ..
    refine (UserReward.meets_revert htell (Int.not_le.1 hearned) htotal).mono fun result ctx' books'' hrevert => ?_
    cases result with
    | ok => rwa [Either, hrevert, huser]
    | error => exact hrevert ▸ .notTakenBack hjob (Int.not_le.1 hearned) hreopened

theorem visits_rewarding (hmay : ∀ e : CompletionError, e.leftClaimed = none → may e) (hkeyed : books.Keyed)
    (hjob : books.Selects r job) :
    Run.Visits (Books.protocol may Context) policy
      [UserReward.step, Advance.step, Closing.step, GuildReward.step, Sharing.step]
      (Stage r job.mission (fun records reward _ => records = job.records ∧ reward.after = none) books)
      (Ended r job.mission (credited books r.user job))
      (Undone fun names cause _ => Remains may r books names cause) := by
  refine visits_settled
    (S := Stage r job.mission (fun records reward _ => records = job.records ∧
      reward.Tell (books.userTotal r.user) job.mission.experience) (books.rewarded r.user job.mission.experience))
    (F := fun e ctx books' => Stage r job.mission
      (fun records reward _ => records = job.records ∧ reward.after = none) books ctx books' ∧ may e)
    rfl rfl rfl (fun _ _ _ => rfl) ?_ (fun e ctx books' _ h => h.1)
    (visits_closing hmay (hkeyed.rewarded ..) (hjob.rewarded ..))
    (fun names cause ctx books' h => meets_takeBack hjob h) ?_
  · rintro ctx _ ⟨hbrief, ⟨hrecords, hfresh⟩, rfl⟩
    have huser : ctx.request.user = r.user := congrArg (fun brief => brief.request.user) hbrief
    have hearned : ctx.userEarned = job.mission.experience := congrArg Context.Brief.userEarned hbrief
    refine (UserReward.meets_grant hfresh).mono fun result ctx' books' hgrant => ?_
    rw [huser, hearned] at hgrant
    cases result with
    | ok =>
      obtain ⟨hbrief', hrecords', htell, rfl⟩ := hgrant
      exact ⟨hbrief'.trans hbrief, ⟨hrecords'.trans hrecords, htell⟩, rfl⟩
    | error e =>
      obtain ⟨hbrief', hrecords', hfresh', he, rfl⟩ := hgrant
      exact ⟨⟨hbrief'.trans hbrief, ⟨hrecords'.trans hrecords, hfresh'⟩, rfl⟩, he⟩
  · rintro e ctx books' ⟨⟨-, -, rfl⟩, he⟩
    exact .untouched he

/-! ### The whole run -/

def Through (r : Request) (before : Books) (ctx : Context) (after : Books) : Prop :=
  ∃ job, before.Selects r job ∧ Ended r job.mission (credited before r.user job) ctx after

theorem visits_loaded (hmay : ∀ e : CompletionError, e.leftClaimed = none → may e) (hkeyed : books.Keyed) :
    Run.Visits (Books.protocol may Context) policy
      [UserReward.step, Advance.step, Closing.step, GuildReward.step, Sharing.step]
      (fun ctx books' => Loading.Loaded r books ctx ∧ books' = books) (Through r books)
      (Undone fun names cause _ => Remains may r books names cause) := by
  have hjobs (job : { job // books.Selects r job }) :
      Run.Visits (Books.protocol may Context) policy
        [UserReward.step, Advance.step, Closing.step, GuildReward.step, Sharing.step]
        (Stage r job.1.mission (fun records reward _ => records = job.1.records ∧ reward.after = none) books)
        (Through r books) (Undone fun names cause _ => Remains may r books names cause) :=
    (visits_rewarding hmay hkeyed job.2).mono (fun _ _ h => h) (fun _ _ h => ⟨job.1, job.2, h⟩) fun _ _ _ h => h
  refine (Run.Visits.exists hjobs).mono ?_ (fun _ _ h => h) fun _ _ _ h => h
  rintro ctx _ ⟨⟨job, hjob, hbrief, hrecords, hfresh⟩, rfl⟩
  exact ⟨⟨job, hjob⟩, hbrief, ⟨hrecords, hfresh⟩, rfl⟩

variable (policy r) in
theorem visits_all (hmay : ∀ e : CompletionError, e.leftClaimed = none → may e) (hkeyed : books.Keyed) :
    Run.Visits (Books.protocol may Context) policy
      [Loading.step, UserReward.step, Advance.step, Closing.step, GuildReward.step, Sharing.step]
      (fun ctx books' => ctx = .start r ∧ books' = books) (Through r books)
      (Undone fun names cause _ => Remains may r books names cause) := by
  refine visits_settled (F := fun e ctx books' => ctx = .start r ∧ may e ∧ books' = books) rfl rfl
    Loading.compensate_eq_settle (fun _ _ _ => rfl) ?_ (fun e ctx books' _ h => ⟨h.1, h.2.2⟩)
    (visits_loaded hmay hkeyed) (fun _ _ _ _ h => h) ?_
  · rintro ctx _ ⟨rfl, rfl⟩
    exact Loading.meets_load fun e he => hmay e (e.leftClaimed_of_isValidation he)
  · rintro e ctx books' ⟨-, he, rfl⟩
    exact .untouched he

/-- A completion that is alone with its books goes through, with everything credited, or is aborted, with what remains
as it reports. -/
theorem obeys_complete_undisturbed (hmay : ∀ e : CompletionError, e.leftClaimed = none → may e) (hkeyed : books.Keyed)
    (o : Operation) (r : Request) :
    (o.complete r).Obeys (Books.protocol may Context) (fun outcome after =>
      match outcome with
      | .ok (.ok _, _) => ∃ job, books.Selects r job ∧ (credited books r.user job).SharingAside after
      | .ok (.error e, _) => Remains may r books e.stepsNotUndone e.stepCause after
      | .error _ => ¬ o.Countable) books := by
  have hvisits := visits_all o.saga.policyFor (o.effective r) hmay hkeyed
  rw [← o.steps_saga] at hvisits
  refine o.obeys_complete hvisits r ⟨rfl, rfl⟩ ?_ ?_ fun _ _ h => h
  · rintro ctx after report audit ⟨job, hjob, hbrief, hshared⟩
    have hmission : ctx.mission = some job.mission := congrArg Context.Brief.mission hbrief
    rw [Completion.ofRun, Context.missionId, hmission, Option.map_some]
    exact ⟨job, hjob.of_effective, hshared⟩
  · intro a ctx after audit h
    dsimp only
    rw [CompletionError.stepsNotUndone, CompletionError.undoFailures_ofAborted, CompletionError.stepCause_ofAborted]
    exact h.of_effective

end Completion

end Missions
