import Missions.Proofs.Completion.Agreement.Showing
import Missions.Proofs.Completion.Effect

/-! The reports of completions that go through, stage by stage from the last one back to the first. -/

namespace Missions

open Procedure

def Books.Numbered (books : Books) : Prop := ∀ f ∈ books.feeds, f.id < books.nextFeed

namespace Books.Numbered

variable {books : Books}

theorem rewarded (h : books.Numbered) (user : String) (amount : Int) : (books.rewarded user amount).Numbered := by
  rw [Books.rewarded_eq]
  exact h

theorem closed (h : books.Numbered) (job : Job) : (books.closed job).Numbered := by
  cases job <;> exact h

theorem guildCredited (h : books.Numbered) (m : Mission) : (books.guildCredited m).Numbered := by
  rw [Books.guildCredited_eq]
  exact h

end Books.Numbered

theorem Context.target_congr {ctx ctx' : Context} (hbrief : ctx'.brief = ctx.brief)
    (hrecords : ctx'.records = ctx.records) : ctx'.target = ctx.target := by
  have hrequest : ctx'.request = ctx.request := congrArg Context.Brief.request hbrief
  have hexecution : ctx'.execution = ctx.execution := congrArg Context.Records.execution hrecords
  have hpinned : ctx'.pinned = ctx.pinned := congrArg Context.Records.pinned hrecords
  rw [target, target, hrequest, hexecution, hpinned]

namespace Completion

/-- A caller that is alone with books whose deletions of entries never fail. -/
abbrev alone : Logic (Program Context) Books := (Books.sparing (fun _ => True) Sharing.Deletes Context).logic

variable {policy : CompletionStep → RetryPolicy} {step : CompletionStep} {rest : List CompletionStep}
variable {r : Request} {m : Mission} {job : Job} {books : Books} {target : Target} {shown : Context.Shown}

theorem alone_obeys_true {α : Type} (p : Program Context α) (books : Books) : alone.Obeys p (fun _ _ => True) books :=
  Program.obeys_of_allowed (fun _ _ _ => trivial) p books

theorem completes_settled {doing : String} {rejects : CompletionError → Bool} {body : Procedure Success}
    {I S : Context → Books → Prop} {D : Report CompletionError → Context → Books → Prop}
    (hmandatory : step.mandatory = true) (hexecute : step.execute = settle doing rejects body)
    (happlies : ∀ ctx books, I ctx books → step.applies ctx = true)
    (hbody : ∀ ctx books, I ctx books → body.Meets (Books.protocol (fun _ => True) Context)
      (Either S fun e ctx books => rejects e = false → I ctx books) ctx books)
    (hrest : Run.Completes alone policy rest S fun report => D (report.executing step.name)) :
    Run.Completes alone policy (step :: rest) I D := by
  refine .mandatory (T := Settled rejects S fun e ctx books => rejects e = false → I ctx books) hmandatory happlies
    (fun ctx books hI => ?_) (fun result ctx books hretry hT => ?_) (fun ctx => alone_obeys_true _)
    fun result hok => hrest.mono (fun ctx books hT => hT.of_isSuccess hok) fun _ _ _ h => h
  · rw [hexecute]
    exact (hbody ctx books hI).settle.sparing Sharing.Deletes
  · obtain ⟨e, hpasses, hF⟩ := hT.of_isRetryable hretry
    exact hF hpasses

/-- Where a run that goes on stands: what it is about, what holds of the rest of the context, and the books. -/
def Stands (r : Request) (m : Mission) (C : Context → Prop) (books : Books) (ctx : Context) (books' : Books) : Prop :=
  ctx.brief = .of r m ∧ C ctx ∧ books' = books

/-! ### Sharing -/

/-- It is known which record may be marked as shared, and what is shown. -/
def Told (target : Target) (shown : Context.Shown) (ctx : Context) : Prop :=
  ctx.target = some target ∧ ctx.shown = shown

theorem Stands.of_facets {ctx ctx' : Context} {books₁ : Books} (h : Stands r m (Told target shown) books ctx books₁)
    (hbrief : ctx'.brief = ctx.brief) (hrecords : ctx'.records = ctx.records) (hshown : ctx'.shown = ctx.shown)
    (books' : Books) : Stands r m (Told target shown) books' ctx' books' := by
  obtain ⟨hbrief₀, ⟨htarget₀, hshown₀⟩, -⟩ := h
  exact ⟨hbrief.trans hbrief₀, ⟨(Context.target_congr hbrief hrecords).trans htarget₀, hshown.trans hshown₀⟩, rfl⟩

inductive Shared (ctx : Context) (m : Mission) (target : Target) (books : Books) :
    Report CompletionError → Context → Books → Prop
  | unasked (hshare : ctx.request.share = false) :
      Shared ctx m target books (.executing Sharing.step.name {}) ctx books
  | published (hshare : ctx.request.share = true) {ctx' : Context} {books' : Books}
      (h : Sharing.Published ctx m target books true ctx' books') :
      Shared ctx m target books (.executing Sharing.step.name {}) ctx' books'
  | withdrawn (hshare : ctx.request.share = true) {ctx' : Context} {books' : Books}
      (h : Sharing.Published ctx m target books false ctx' books') (message : String) (cause : Option CompletionError) :
      Shared ctx m target books (.passingOver ⟨Sharing.step.name, message, cause⟩ {}) ctx' books'

def Concluded (r : Request) (m : Mission) (target : Target) (shown : Context.Shown) (books : Books)
    (first report : Report CompletionError) (ctx' : Context) (books' : Books) : Prop :=
  ∃ ctx last, Stands r m (Told target shown) books ctx books ∧ report = first.append last ∧
    Shared ctx m target books last ctx' books'

section

variable {first report : Report CompletionError} {ctx : Context} {books' : Books}

theorem Concluded.executing (h : Concluded r m target shown books first report ctx books') (name : String) :
    Concluded r m target shown books (first.executing name) (report.executing name) ctx books' := by
  obtain ⟨ctx, last, hstands, rfl, hshared⟩ := h
  exact ⟨ctx, last, hstands, rfl, hshared⟩

theorem Concluded.skipping (h : Concluded r m target shown books first report ctx books') (name : String) :
    Concluded r m target shown books (first.skipping name) (report.skipping name) ctx books' := by
  obtain ⟨ctx, last, hstands, rfl, hshared⟩ := h
  exact ⟨ctx, last, hstands, rfl, hshared⟩

end

theorem obeys_attempts_unasked {ctx : Context} (hshare : ctx.request.share = false) (retries : Nat) :
    alone.Obeys ((Run.attempt Sharing.step.execute retries 0).run.run ctx)
      (Run.Attempted (fun tries ctx' books' => tries.result.isSuccess = true ∧ ctx' = ctx ∧ books' = books) retries)
      books := by
  refine Run.attempted_all (J := fun _ ctx' books' => ctx' = ctx ∧ books' = books) (fun _ ctx' books' h => ?_) retries
    ⟨rfl, rfl⟩
  obtain ⟨rfl, rfl⟩ := h
  have hpublish : Sharing.publish.Meets (Books.sparing (fun _ => True) Sharing.Deletes Context) (Either
      (fun ctx'' books'' => ctx'' = ctx' ∧ books'' = books') fun _ _ _ => False) ctx' books' := by
    rw [Sharing.publish, meets_bind, meets_get]
    simp only [hshare, Bool.not_false, if_true, meets_pure, Either, and_self]
  refine hpublish.settle.mono fun came books'' hr => ?_
  obtain ⟨result, ctx''⟩ := came
  cases hok : result.isSuccess with
  | true =>
    have hsame := hr.of_isSuccess hok
    exact ⟨fun _ => hsame, rfl, hsame⟩
  | false =>
    obtain ⟨-, -, -, hfailed⟩ := hr.of_failed hok
    exact hfailed.elim

theorem completes_shared (hnumbered : books.Numbered) {ctx : Context}
    (h : Stands r m (Told target shown) books ctx books) :
    Run.Completes alone policy [Sharing.step] (fun ctx' books' => ctx' = ctx ∧ books' = books)
      (Shared ctx m target books) := by
  obtain ⟨hbrief, ⟨htarget, -⟩, -⟩ := h
  have hmission : ctx.mission = some m := congrArg Context.Brief.mission hbrief
  cases hshare : ctx.request.share with
  | false =>
    refine .apply (fun _ _ _ => rfl)
      (T := fun tries ctx' books' => tries.result.isSuccess = true ∧ ctx' = ctx ∧ books' = books)
      ?_ (fun ctx => alone_obeys_true _) (fun tries _ => .nil ?_) fun tries hfailed _ => .nil ?_
    · rintro _ _ ⟨rfl, rfl⟩
      exact obeys_attempts_unasked hshare _
    · rintro _ _ ⟨-, rfl, rfl⟩
      exact .unasked hshare
    · rintro _ _ ⟨hok, -⟩
      exact absurd (hok.symm.trans hfailed) (by decide)
  | true =>
    refine .apply (fun _ _ _ => rfl)
      (T := fun tries ctx' books' => Sharing.Published ctx m target books tries.result.isSuccess ctx' books')
      ?_ (fun ctx => alone_obeys_true _) (fun tries hok => .nil ?_) fun tries hfailed _ => .nil ?_
    · rintro _ _ ⟨rfl, rfl⟩
      exact Sharing.obeys_attempts hshare hmission htarget hnumbered _
    · intro ctx' books' hpublished
      rw [hok] at hpublished
      exact .published hshare hpublished
    · intro ctx' books' hpublished
      rw [hfailed] at hpublished
      exact .withdrawn hshare hpublished _ _

theorem completes_sharing (hnumbered : books.Numbered) :
    Run.Completes alone policy [Sharing.step] (Stands r m (Told target shown) books)
      (Concluded r m target shown books {}) := by
  -- attempts go back to the context in which the first of them began, so each such context is followed by itself
  have hshared (ctx : { ctx // Stands r m (Told target shown) books ctx books }) :
      Run.Completes alone policy [Sharing.step] (fun ctx' books' => ctx' = ctx.1 ∧ books' = books)
        (Concluded r m target shown books {}) :=
    (completes_shared hnumbered ctx.2).mono (fun _ _ h => h) fun last _ _ h => ⟨ctx.1, last, ctx.2, rfl, h⟩
  refine (Run.Completes.exists hshared).mono ?_ fun _ _ _ h => h
  rintro ctx _ ⟨hbrief, htold, rfl⟩
  exact ⟨⟨ctx, hbrief, htold, rfl⟩, rfl, rfl⟩

/-! ### The guild's reward -/

def guildReport (m : Mission) : Report CompletionError :=
  if m.guild.isSome then .executing GuildReward.step.name {} else .skipping GuildReward.step.name {}

theorem completes_ending (hnumbered : books.Numbered) :
    Run.Completes alone policy [GuildReward.step, Sharing.step] (Stands r m (Told target shown) books)
      (Concluded r m target shown (books.guildCredited m) (guildReport m)) := by
  have hsharing : Run.Completes alone policy [Sharing.step] (Stands r m (Told target shown) (books.guildCredited m))
      (Concluded r m target shown (books.guildCredited m) {}) := completes_sharing (hnumbered.guildCredited m)
  cases hguild : m.guild with
  | none =>
    have hreport : guildReport m = .skipping GuildReward.step.name {} := by simp [guildReport, hguild]
    have hbooks : books.guildCredited m = books := by rw [Books.guildCredited, hguild]
    rw [hreport, hbooks]
    rw [hbooks] at hsharing
    refine .skip (fun ctx books' h => ?_) (hsharing.mono (fun _ _ h => h) fun _ _ _ h => h.skipping _)
    rw [applies_guildReward h.1, hguild, Option.isSome_none]
  | some guild =>
    have hreport : guildReport m = .executing GuildReward.step.name {} := by simp [guildReport, hguild]
    rw [hreport]
    refine completes_settled rfl rfl (fun ctx books' h => ?_) ?_
      (hsharing.mono (fun _ _ h => h) fun _ _ _ h => h.executing _)
    · rw [applies_guildReward h.1, hguild, Option.isSome_some]
    · intro ctx books₁ hstands
      obtain ⟨hbrief, -, rfl⟩ := id hstands
      refine ((meets_guildReward hbrief hguild).and GuildReward.meets_grant_shown).mono
        fun result ctx' books' hgrant => ?_
      obtain ⟨hgrant, hshown⟩ := hgrant
      cases result with
      | ok =>
        obtain ⟨hbrief', hrecords, -, -, rfl⟩ := hgrant
        exact hstands.of_facets hbrief' hrecords hshown _
      | error e =>
        obtain ⟨hbrief', hrecords, -, -, -, rfl⟩ := hgrant
        exact fun _ => hstands.of_facets hbrief' hrecords hshown _

/-! ### Closing the record -/

/-- What the report says of closing a job's record, and of what comes after it up to sharing. -/
def closingReport : Job → Report CompletionError
  | .regular m _ _ => ((guildReport m).skipping Closing.step.name).executing Advance.step.name
  | .pinned m _ => ((guildReport m).executing Closing.step.name).skipping Advance.step.name

/-- The progress of a job's participant once the record is closed, if it has one. -/
def progressAfter (books : Books) : Job → Option UInt8
  | .regular m p x => some (books.advanced m p x).progress
  | .pinned .. => none

def Ready (job : Job) (shown : Context.Shown) (ctx : Context) : Prop :=
  ctx.records = job.records ∧ ctx.shown = shown

theorem completes_advance (hkeyed : books.Keyed) (hnumbered : books.Numbered) {p : Participant} {x : Execution}
    (hjob : books.Selects r (.regular m p x)) :
    Run.Completes alone policy [Advance.step, Closing.step, GuildReward.step, Sharing.step]
      (Stands r m (Ready (.regular m p x) shown) books)
      (Concluded r m (.execution x.id) { shown with progress := some (books.advanced m p x).progress }
        ((books.closed (.regular m p x)).guildCredited m) (closingReport (.regular m p x))) := by
  have hregular {ctx : Context} (hbrief : ctx.brief = .of r m) : ctx.request.pinned = false :=
    (congrArg (fun brief => brief.request.pinned) hbrief).trans hjob.1
  obtain ⟨hopen, -, hstatus⟩ := Books.executionInProgress_eq_some hkeyed hjob.2.2.2
  have hending : Run.Completes alone policy [Closing.step, GuildReward.step, Sharing.step]
      (Stands r m (Told (.execution x.id) { shown with progress := some (books.advanced m p x).progress })
        (books.closed (.regular m p x)))
      (Concluded r m (.execution x.id) { shown with progress := some (books.advanced m p x).progress }
        ((books.closed (.regular m p x)).guildCredited m) ((guildReport m).skipping Closing.step.name)) := by
    refine .skip (fun ctx books' h => hregular h.1) ?_
    exact (completes_ending (hnumbered.closed _)).mono (fun _ _ h => h) fun _ _ _ h => h.skipping _
  refine completes_settled rfl rfl (fun ctx books' h => congrArg not (hregular h.1)) ?_
    (hending.mono (fun _ _ h => h) fun _ _ _ h => h.executing _)
  rintro ctx _ ⟨hbrief, ⟨hrecords, hshown⟩, rfl⟩
  have hm : ctx.mission = some m := congrArg Context.Brief.mission hbrief
  have hp : ctx.participant = some p := congrArg Context.Records.participant hrecords
  have hx : ctx.execution = some x := congrArg Context.Records.execution hrecords
  refine ((Advance.meets_update (fun _ _ => trivial) hm hp hx hopen hstatus).and
    (Advance.meets_update_shown hm hp hx)).mono fun result ctx' books' hupdate => ?_
  cases result with
  | ok =>
    obtain ⟨⟨hbrief', -, -, hexecution, rfl⟩, updated, hstored, hshown'⟩ := hupdate
    obtain rfl := Option.some.inj ((Table.get?_insert_self _ _ _).symm.trans hstored)
    have hbrief'' : ctx'.brief = .of r m := hbrief'.trans hbrief
    refine ⟨hbrief'', ⟨?_, hshown ▸ hshown'⟩, rfl⟩
    rw [Context.target, hregular hbrief'', hexecution]
    rfl
  | error e =>
    obtain ⟨⟨hbrief', -, hrecords', ⟨-, rfl⟩ | ⟨he, -⟩⟩, hshown'⟩ := hupdate
    · exact fun _ => ⟨hbrief'.trans hbrief, ⟨hrecords'.trans hrecords, hshown'.trans hshown⟩, rfl⟩
    · -- a claim that stays behind rejects the request, so that no attempt follows it
      refine fun hpasses => ?_
      cases e <;> simp [CompletionError.leftClaimed, losesClaim] at he hpasses

theorem completes_close (hkeyed : books.Keyed) (hnumbered : books.Numbered) {i : Instance}
    (hjob : books.Selects r (.pinned m i)) :
    Run.Completes alone policy [Advance.step, Closing.step, GuildReward.step, Sharing.step]
      (Stands r m (Ready (.pinned m i) shown) books)
      (Concluded r m (.pinned i.id) shown ((books.closed (.pinned m i)).guildCredited m)
        (closingReport (.pinned m i))) := by
  have hpinned {ctx : Context} (hbrief : ctx.brief = .of r m) : ctx.request.pinned = true :=
    (congrArg (fun brief => brief.request.pinned) hbrief).trans hjob.1
  have hi : books.instances.get? i.id = some i := hjob.stored hkeyed
  have hending : Run.Completes alone policy [GuildReward.step, Sharing.step]
      (Stands r m (Told (.pinned i.id) shown) (books.closed (.pinned m i)))
      (Concluded r m (.pinned i.id) shown ((books.closed (.pinned m i)).guildCredited m) (guildReport m)) :=
    completes_ending (hnumbered.closed _)
  refine .skip (fun ctx books' h => congrArg not (hpinned h.1)) ?_
  refine completes_settled rfl rfl (fun ctx books' h => hpinned h.1) ?_
    (hending.mono (fun _ _ h => h) fun _ _ _ h => (h.executing _).skipping _)
  rintro ctx _ ⟨hbrief, ⟨hrecords, hshown⟩, rfl⟩
  refine ((Closing.meets_close (congrArg Context.Records.pinned hrecords) hi hjob.2.2.1).and
    Closing.meets_close_shown).mono fun result ctx' books' hclose => ?_
  obtain ⟨hclose, hshown'⟩ := hclose
  cases result with
  | ok =>
    obtain ⟨hbrief', -, -, -, hinstance, rfl⟩ := hclose
    have hbrief'' : ctx'.brief = .of r m := hbrief'.trans hbrief
    refine ⟨hbrief'', ⟨?_, hshown'.trans hshown⟩, rfl⟩
    rw [Context.target, hpinned hbrief'', hinstance]
    rfl
  | error e =>
    obtain ⟨hbrief', -, hrecords', -, rfl⟩ := hclose
    exact fun _ => ⟨hbrief'.trans hbrief, ⟨hrecords'.trans hrecords, hshown'.trans hshown⟩, rfl⟩

theorem completes_closing (hkeyed : books.Keyed) (hnumbered : books.Numbered) (hjob : books.Selects r job)
    (hshown : shown.progress = none) :
    Run.Completes alone policy [Advance.step, Closing.step, GuildReward.step, Sharing.step]
      (Stands r job.mission (Ready job shown) books)
      (Concluded r job.mission job.target { shown with progress := progressAfter books job }
        ((books.closed job).guildCredited job.mission) (closingReport job)) := by
  cases job with
  | regular m p x => exact completes_advance hkeyed hnumbered hjob
  | pinned m i =>
    have hsame : { shown with progress := progressAfter books (.pinned m i) } = shown := by
      rw [progressAfter, ← hshown]
    rw [hsame]
    exact completes_close hkeyed hnumbered hjob

/-! ### The whole run -/

def shownBy (books : Books) (user : String) (job : Job) : Context.Shown :=
  { books.levels user job.mission.experience with
    progress := progressAfter (books.rewarded user job.mission.experience) job }

theorem completes_rewarding (hkeyed : books.Keyed) (hnumbered : books.Numbered) (hjob : books.Selects r job) :
    Run.Completes alone policy [UserReward.step, Advance.step, Closing.step, GuildReward.step, Sharing.step]
      (Stands r job.mission (fun ctx => ctx.records = job.records ∧ ctx.reward.after = none ∧ UserReward.Untold ctx)
        books)
      (Concluded r job.mission job.target (shownBy books r.user job) (credited books r.user job)
        ((closingReport job).executing UserReward.step.name)) := by
  have hprogress : (books.levels r.user job.mission.experience).progress = none :=
    congrArg Context.Shown.progress (books.levels_eq_levels r.user job.mission.experience)
  have hclosing : Run.Completes alone policy [Advance.step, Closing.step, GuildReward.step, Sharing.step]
      (Stands r job.mission (Ready job (books.levels r.user job.mission.experience))
        (books.rewarded r.user job.mission.experience))
      (Concluded r job.mission job.target (shownBy books r.user job) (credited books r.user job) (closingReport job)) :=
    completes_closing (hkeyed.rewarded ..) (hnumbered.rewarded _ _) (hjob.rewarded ..) hprogress
  refine completes_settled rfl rfl (fun _ _ _ => rfl) ?_
    (hclosing.mono (fun _ _ h => h) fun _ _ _ h => h.executing _)
  rintro ctx _ ⟨hbrief, ⟨hrecords, hfresh, huntold⟩, rfl⟩
  have huser : ctx.request.user = r.user := congrArg (fun brief => brief.request.user) hbrief
  have hearned : ctx.userEarned = job.mission.experience := congrArg Context.Brief.userEarned hbrief
  refine ((UserReward.meets_grant hfresh).and (UserReward.meets_grant_shown huntold)).mono
    fun result ctx' books' hgrant => ?_
  rw [huser, hearned] at hgrant
  cases result with
  | ok =>
    obtain ⟨⟨hbrief', hrecords', -, rfl⟩, hshown⟩ := hgrant
    exact ⟨hbrief'.trans hbrief, ⟨hrecords'.trans hrecords, hshown⟩, rfl⟩
  | error e =>
    obtain ⟨⟨hbrief', hrecords', hfresh', -, rfl⟩, huntold'⟩ := hgrant
    exact fun _ => ⟨hbrief'.trans hbrief, ⟨hrecords'.trans hrecords, hfresh', huntold'⟩, rfl⟩

def jobReport (job : Job) : Report CompletionError :=
  ((closingReport job).executing UserReward.step.name).executing Loading.step.name

def Reported (r : Request) (before : Books) (report : Report CompletionError) (ctx : Context) (after : Books) : Prop :=
  ∃ job, before.Selects r job ∧ Concluded r job.mission job.target (shownBy before r.user job)
    (credited before r.user job) (jobReport job) report ctx after

theorem completes_all (hkeyed : books.Keyed) (hnumbered : books.Numbered) :
    Run.Completes alone policy
      [Loading.step, UserReward.step, Advance.step, Closing.step, GuildReward.step, Sharing.step]
      (fun ctx books' => ctx = .start r ∧ books' = books) (Reported r books) := by
  have hjobs (job : { job // books.Selects r job }) :
      Run.Completes alone policy [UserReward.step, Advance.step, Closing.step, GuildReward.step, Sharing.step]
        (Stands r job.1.mission
          (fun ctx => ctx.records = job.1.records ∧ ctx.reward.after = none ∧ UserReward.Untold ctx) books)
        fun report => Reported r books (report.executing Loading.step.name) :=
    (completes_rewarding hkeyed hnumbered job.2).mono (fun _ _ h => h)
      fun _ _ _ h => ⟨job.1, job.2, h.executing Loading.step.name⟩
  refine completes_settled rfl rfl (fun _ _ _ => rfl) ?_ (Run.Completes.exists hjobs)
  rintro ctx _ ⟨rfl, rfl⟩
  refine ((Loading.meets_load fun _ _ => trivial).and (Loading.meets_load_shown r)).mono
    fun result ctx' books' hload => ?_
  cases result with
  | ok =>
    obtain ⟨⟨⟨job, hjob, hbrief, hrecords, hfresh⟩, rfl⟩, hshown⟩ := hload
    exact ⟨⟨job, hjob⟩, hbrief, ⟨hrecords, hfresh, .inl hshown⟩, rfl⟩
  | error e =>
    obtain ⟨⟨rfl, -, rfl⟩, -⟩ := hload
    exact fun _ => ⟨rfl, rfl⟩

end Completion

end Missions
