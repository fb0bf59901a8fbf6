import Missions.Proofs.Completion.Absorption.Steps
import Missions.Proofs.Completion.Effect
import Missions.Proofs.Completion.Found

/-! Failures of grants, counts, additions to a guild and publications, as many as the retries of the steps that make
these calls, do not show: the completion comes to the result and leaves the books that it would have come to without
them. -/

namespace Missions

open Procedure

section

variable {Q : Except CompletionError Success → Context → Books → Prop} {may : CompletionError → Prop}
variable {doing : String} {rejects : CompletionError → Bool} {step : CompletionStep} {body : Procedure Success}
variable {ctx : Context} {books : Books}

theorem Procedure.Meets.runIn_calm (h : body.Meets (Books.protocol may Context) Q ctx books) :
    Q (body.runIn ctx ⟨books, {}⟩).1.1 (body.runIn ctx ⟨books, {}⟩).1.2 (body.runIn ctx ⟨books, {}⟩).2.books := by
  have hclean : World.server.FailsCleanly may World.books fun w => w.faults = {} :=
    World.server_unfailing.mono fun _ h => h.elim
  have hcalm : (⟨books, {}⟩ : World).faults = {} := rfl
  exact Program.Obeys.serve (hclean.governs Context) hcalm h

theorem executed_calm (hexecute : step.execute = settle doing rejects body)
    (h : body.Meets (Books.protocol may Context) Q ctx books)
    (hok : ((step.served World.server).execute.run (ctx, ⟨books, {}⟩)).1.isSuccess = true) :
    ∃ success, Q (.ok success) ((step.served World.server).execute.run (ctx, ⟨books, {}⟩)).2.1
      ((step.served World.server).execute.run (ctx, ⟨books, {}⟩)).2.2.books := by
  have hcame := h.runIn_calm
  rcases hrun : body.runIn ctx ⟨books, {}⟩ with ⟨⟨r, ctx'⟩, w'⟩
  rw [hrun] at hcame
  rw [run_served_execute hexecute hrun] at hok ⊢
  cases r with
  | ok success => exact ⟨success, hcame⟩
  | error e =>
    rw [reported] at hok
    split at hok <;> cases hok

end

/-! ### Steps -/

variable {most : Faults} {r : Request}

/-- The context is loaded for the request, whatever the records are. -/
def Equipped (r : Request) (ctx : Context) : Prop := ∃ m, Knowledge.none.Loaded r m ctx

def Begins (step : CompletionStep) (I : Context → Books → Prop) (ctx : Context) (books : Books) : Prop :=
  I ctx books ∧ step.applies ctx = true

/-- From where the condition holds the step, if it applies, absorbs failures of the method. -/
def Step.AbsorbsFrom (step : CompletionStep) (most : Faults) (awaited : Method) (I : Context → Books → Prop) : Prop :=
  (step.served World.server).Absorbs most.faultModel (fun s => s.2.faults.awaiting awaited)
    fun s => Begins step I s.1 s.2.books

variable {ctx : Context} {books : Books}

theorem Loading.meets_load_calm (r : Request) (books : Books) : load.Meets
    (Books.protocol (·.isValidation = true) Context)
    (Either (fun ctx' books' => Loaded r books ctx' ∧ books' = books)
      fun e ctx' books' => ctx' = .start r ∧ e.isValidation = true ∧ books' = books) (.start r) books :=
  meets_load fun _ he => he

theorem Loading.absorbs :
    step.AbsorbsFrom most .findMission fun ctx books => ctx = .start r ∧ books.Keyed := by
  refine absorbs_settled rfl compensate_eq_settle (fun ctx books faults hfaults _ => ?_)
    (fun ctx books hbegins e ctx' w' hrun => ?_) fun faults ctx => ?_
  · exact .of_unawaited hfaults (confined_load.preserves (tolerates_not_retried (by decide)) ctx () trivial)
  · obtain ⟨⟨rfl, -⟩, -⟩ := hbegins
    have hcame := (meets_load_calm r books).runIn_calm
    rw [hrun] at hcame
    exact hcame.2.1
  · trivial

theorem Loading.Loaded.ready {ctx : Context} (hkeyed : books.Keyed) (h : Loading.Loaded r books ctx) :
    Ready r ctx books := by
  obtain ⟨job, hjob, hbrief, hrecords, -⟩ := h
  have hexecution : ctx.execution = job.records.execution := congrArg Context.Records.execution hrecords
  have hparticipant : ctx.participant = job.records.participant := congrArg Context.Records.participant hrecords
  have hpinned : ctx.pinned = job.records.pinned := congrArg Context.Records.pinned hrecords
  cases job with
  | regular m p x =>
    have hregular : r.pinned = false := hjob.1
    obtain ⟨hstored, -, hstatus⟩ := Books.executionInProgress_eq_some hkeyed hjob.2.2.2
    refine ⟨⟨m, hbrief, fun _ => ⟨p, hparticipant, trivial⟩, fun _ => ⟨x, hexecution, trivial⟩, fun hr => ?_⟩,
      fun _ y hy => ?_⟩
    · cases hregular.symm.trans hr
    · obtain rfl : x = y := Option.some.inj (hexecution.symm.trans hy)
      exact ⟨hstored, hstatus⟩
  | pinned m i =>
    have hr : r.pinned = true := hjob.1
    refine ⟨⟨m, hbrief, fun hregular => ?_, fun hregular => ?_, fun _ => ⟨i, hpinned, trivial⟩⟩,
      fun hregular => ?_⟩
    all_goals cases hr.symm.trans hregular

theorem UserReward.absorbs : step.AbsorbsFrom most .grantExperience (Ready r) := by
  refine absorbs_settled rfl rfl (fun ctx books faults hfaults hbegins => ?_)
    (fun ctx books hbegins e ctx' w' hrun => ?_) fun faults ctx => ?_
  · exact retriable_grant hfaults ⟨hbegins.1.of_facets rfl rfl rfl, rfl⟩
  · have hok := grant_calm ctx books
    rw [hrun] at hok
    cases hok
  · exact confined_revert.preserves (tolerates_not_retried (by decide)) ctx () trivial

theorem Advance.absorbs : step.AbsorbsFrom most .countExecutions (Ready r) := by
  have hloaded {ctx : Context} {books : Books} (h : Begins step (Ready r) ctx books) : ∃ m p x,
      ctx.mission = some m ∧ ctx.participant = some p ∧ ctx.execution = some x ∧
        books.executions.get? x.id = some x ∧ x.status = .inProgress := by
    obtain ⟨⟨⟨m, hm⟩, hstored⟩, happlies⟩ := h
    have hregular : r.pinned = false := by
      rw [← hm.request]
      exact Bool.not_eq_true' _ ▸ happlies
    obtain ⟨p, hp, -⟩ := hm.participant hregular
    obtain ⟨x, hx, -⟩ := hm.execution hregular
    exact ⟨m, p, x, hm.mission, hp, hx, hstored hregular x hx⟩
  refine absorbs_settled rfl rfl (fun ctx books faults hfaults hbegins => ?_)
    (fun ctx books hbegins e ctx' w' hrun => ?_) fun faults ctx => ?_
  · obtain ⟨m, p, x, hm, hp, hx, hstored, hstatus⟩ := hloaded hbegins
    obtain ⟨hbrief, -, hrecords⟩ := facets_begun ctx p x
    have happlies : step.applies (begun ctx p x) = step.applies ctx := rfl
    refine retriable_update hm hp hx hstored hstatus hfaults ⟨hbegins.1.of_facets hbrief hrecords rfl, ?_⟩
    rw [happlies]
    exact hbegins.2
  · obtain ⟨m, p, x, hm, hp, hx, hstored, hstatus⟩ := hloaded hbegins
    have hok := update_calm hm hp hx hstored hstatus
    rw [hrun] at hok
    cases hok
  · exact confined_revert.preserves (tolerates_not_retried (by decide)) ctx () trivial

theorem Closing.absorbs : step.AbsorbsFrom most .findMission fun ctx _ => Equipped r ctx := by
  refine absorbs_settled rfl rfl (fun ctx books faults hfaults _ => ?_)
    (fun ctx books hbegins e ctx' w' hrun => ?_) fun faults ctx => ?_
  · exact .of_unawaited hfaults (confined_close.preserves (tolerates_not_retried (by decide)) ctx () trivial)
  · obtain ⟨⟨m, hm⟩, happlies⟩ := hbegins
    have hpinned : r.pinned = true := by
      rw [← hm.request]
      exact happlies
    obtain ⟨i, hi, -⟩ := hm.pinned hpinned
    exact close_calm hi hrun
  · exact confined_revert.preserves (tolerates_not_retried (by decide)) ctx () trivial

theorem GuildReward.absorbs : step.AbsorbsFrom most .addGuildExperience fun ctx _ => Equipped r ctx := by
  have hguilds {ctx : Context} {books : Books} (h : Begins step (fun ctx _ => Equipped r ctx) ctx books) :
      ∃ m guild, ctx.mission = some m ∧ ctx.guild = some guild := by
    obtain ⟨⟨m, hm⟩, happlies⟩ := h
    have hmission : m.isGuildMission = true := (congrArg Context.Brief.isGuildMission hm.brief).symm.trans happlies
    obtain ⟨guild, hguild⟩ := Option.isSome_iff_exists.1 hmission
    exact ⟨m, guild, hm.mission, hm.guild.trans hguild⟩
  refine absorbs_settled rfl rfl (fun ctx books faults hfaults hbegins => ?_)
    (fun ctx books hbegins e ctx' w' hrun => ?_) fun faults ctx => ?_
  · obtain ⟨m, guild, hm, hguild⟩ := hguilds hbegins
    obtain ⟨⟨m', hm'⟩, happlies⟩ := hbegins
    exact retriable_grant hguild hm hfaults ⟨⟨m', hm'.of_facets rfl rfl⟩, happlies⟩
  · obtain ⟨m, guild, hm, hguild⟩ := hguilds hbegins
    have hok := grant_calm hguild hm books
    rw [hrun] at hok
    cases hok
  · exact confined_revert.preserves (tolerates_not_retried (by decide)) ctx () trivial

theorem Sharing.absorbs : step.AbsorbsFrom most .createFeed fun ctx _ => Equipped r ctx := by
  have htargets {ctx : Context} (h : Equipped r ctx) : ∃ m target, ctx.mission = some m ∧ ctx.target = some target := by
    obtain ⟨m, hm⟩ := h
    obtain ⟨target, htarget⟩ := Option.ne_none_iff_exists'.1 hm.target
    exact ⟨m, target, hm.mission, htarget⟩
  refine absorbs_settled rfl rfl (fun ctx books faults hfaults hbegins => ?_)
    (fun ctx books hbegins e ctx' w' hrun => ?_) fun faults ctx => ?_
  · obtain ⟨m, target, hm, htarget⟩ := htargets hbegins.1
    exact retriable_publish htarget hm hfaults hbegins
  · obtain ⟨m, target, hm, htarget⟩ := htargets hbegins.1
    have hok := publish_calm htarget hm books
    rw [hrun] at hok
    cases hok
  · exact confined_unpublish.preserves (tolerates_not_retried (by decide)) ctx () trivial

/-! ### Stages -/

theorem Equipped.executed {step : CompletionStep}
    (hstep : step ∈ [UserReward.step, Advance.step, Closing.step, GuildReward.step, Sharing.step])
    (h : Begins step (fun ctx _ => Equipped r ctx) ctx books) :
    Equipped r ((step.served World.server).execute.run (ctx, ⟨books, {}⟩)).2.1 := by
  have hgoverns : (Knowledge.none.protocol r).Governs World.server (fun _ => ()) fun _ => True := by
    refine fun _ c w _ => ⟨?_, trivial⟩
    change Came Knowledge.none.error (Knowledge.none.Tells c) _
    rcases ((World.server c).run w).1 with e | answer
    · trivial
    · cases c <;> first | trivial | exact fun _ _ => trivial
  obtain ⟨⟨m, hm⟩, happlies⟩ := h
  obtain hskips | hbears := Knowledge.skips_or_bears (k := Knowledge.none) trivial step hstep
  · cases (hskips ctx hm).symm.trans happlies
  · exact ⟨m, ((hbears.execute ctx hm).serve hgoverns (s := (⟨books, {}⟩ : World)) trivial).2⟩

theorem Ready.rewarded (h : Ready r ctx books)
    (hok : ((UserReward.step.served World.server).execute.run (ctx, ⟨books, {}⟩)).1.isSuccess = true) :
    Ready r ((UserReward.step.served World.server).execute.run (ctx, ⟨books, {}⟩)).2.1
      ((UserReward.step.served World.server).execute.run (ctx, ⟨books, {}⟩)).2.2.books := by
  have htolerates : Tolerates (Books.protocol (fun _ => True) Context) (Ready r) UserReward.methods
      (Context.MarkedOnly UserReward.marks) := by
    refine ⟨fun {ctx books c} h hc => ⟨trivial, fun answer books' hanswers => h.of_facets rfl rfl ?_⟩,
      fun h hmarked => h.of_facets hmarked.brief hmarked.records rfl⟩
    cases hanswers with
    | performed => cases c <;> first | rfl | cases hc
    | failed | claimLost => rfl
  obtain ⟨success, hready⟩ := executed_calm rfl (UserReward.confined_grant.preserves htolerates ctx books h) hok
  exact hready

/-- Visits of the steps that begin where the condition holds absorb the failures. -/
def Operation.Outlasts (o : Operation) (most : Faults) (steps : List CompletionStep) (I : Context → Books → Prop) :
    Prop :=
  ∀ s, most.Bounds s.2.faults → I s.1 s.2.books →
    Run.Absorbed most.faultModel (o.saga.served World.server).policyFor (steps.map (Step.served World.server)) s

namespace Operation

variable {o : Operation}

theorem Outlasts.nil {I : Context → Books → Prop} : o.Outlasts most [] I :=
  fun _ hfaults _ => Run.absorbed_nil hfaults

theorem Outlasts.cons {step : CompletionStep} {rest : List CompletionStep} {awaited : Method}
    {I I' : Context → Books → Prop} (h : step.AbsorbsFrom most awaited I)
    (hretries : most.awaiting awaited ≤ (o.saga.policyFor step).maxRetries.toNat)
    (hroom : most.awaiting awaited < attemptCounterMax)
    (hskip : ∀ ctx books, I ctx books → step.applies ctx = false → I' ctx books)
    (hnext : ∀ ctx books, Begins step I ctx books →
      ((step.served World.server).execute.run (ctx, ⟨books, {}⟩)).1.isSuccess = true →
      I' ((step.served World.server).execute.run (ctx, ⟨books, {}⟩)).2.1
        ((step.served World.server).execute.run (ctx, ⟨books, {}⟩)).2.2.books)
    (hrest : o.Outlasts most rest I') : o.Outlasts most (step :: rest) I := by
  intro s hfaults hI
  have habsorbs : (step.served World.server).Absorbs most.faultModel (fun s => s.2.faults.awaiting awaited)
      fun s => I s.1 s.2.books ∧ (step.served World.server).applies s = true := h
  refine Run.absorbed_cons (J := fun s : Context × World => I' s.1 s.2.books) habsorbs (fun _ => rfl) (fun s hs => ?_)
    (fun s hs => ?_) (fun s => hskip s.1 s.2.books) ?_ hrest hfaults hI
  · exact Nat.le_trans (Faults.Bounds.awaiting_le hs awaited) hretries
  · exact Nat.lt_of_le_of_lt (Faults.Bounds.awaiting_le hs awaited) hroom
  · exact fun s hI happlies => hnext s.1 s.2.books ⟨hI, happlies⟩

theorem outlasts_all (o : Operation) (r : Request)
    (hgrants : most.grants ≤ (o.saga.policyFor UserReward.step).maxRetries.toNat)
    (hcounts : most.counts ≤ (o.saga.policyFor Advance.step).maxRetries.toNat)
    (hadditions : most.guildAdditions ≤ (o.saga.policyFor GuildReward.step).maxRetries.toNat)
    (hcreations : most.feedCreations ≤ (o.saga.policyFor Sharing.step).maxRetries.toNat)
    (hroom : ∀ m, most.awaiting m < attemptCounterMax) :
    o.Outlasts most o.saga.steps fun ctx books => ctx = .start r ∧ books.Keyed := by
  have hsharing : o.Outlasts most [Sharing.step] fun ctx _ => Equipped r ctx :=
    .cons Sharing.absorbs hcreations (hroom _) (fun _ _ h _ => h) (fun _ _ h _ => Equipped.executed (by simp) h) .nil
  have hguild : o.Outlasts most [GuildReward.step, Sharing.step] fun ctx _ => Equipped r ctx :=
    .cons GuildReward.absorbs hadditions (hroom _) (fun _ _ h _ => h)
      (fun _ _ h _ => Equipped.executed (by simp) h) hsharing
  have hclosing : o.Outlasts most [Closing.step, GuildReward.step, Sharing.step] fun ctx _ => Equipped r ctx :=
    .cons Closing.absorbs (Nat.zero_le _) (hroom _) (fun _ _ h _ => h)
      (fun _ _ h _ => Equipped.executed (by simp) h) hguild
  have hadvance : o.Outlasts most [Advance.step, Closing.step, GuildReward.step, Sharing.step] (Ready r) :=
    .cons Advance.absorbs hcounts (hroom _) (fun _ _ h _ => h.loaded)
      (fun _ _ h _ => Equipped.executed (by simp) ⟨h.1.loaded, h.2⟩) hclosing
  have huser : o.Outlasts most
      [UserReward.step, Advance.step, Closing.step, GuildReward.step, Sharing.step] (Ready r) :=
    .cons UserReward.absorbs hgrants (hroom _) (fun _ _ h _ => h) (fun _ _ h hok => h.1.rewarded hok) hadvance
  rw [o.steps_saga]
  refine .cons Loading.absorbs (Nat.zero_le _) (hroom _) (fun _ _ _ hskip => nomatch hskip)
    (fun ctx books h hok => ?_) huser
  obtain ⟨⟨rfl, hkeyed⟩, -⟩ := h
  obtain ⟨success, hloaded, hbooks⟩ := executed_calm rfl (Loading.meets_load_calm r books) hok
  rw [hbooks]
  exact hloaded.ready hkeyed

theorem exists_concluded (run : Run CompletionError) (ctx : Context) :
    ∃ result, ∀ audit, concluded (.ok { run with audit }, ctx) = .ok (result, audit) := by
  obtain ⟨aborted | report, audit⟩ := run
  · exact ⟨_, fun _ => rfl⟩
  · exact ⟨_, fun _ => rfl⟩

theorem serve_complete_of_visit {o : Operation} {r : Request} {w w' : World} {ctx : Context}
    {came : Except Interruption (Run CompletionError)}
    (h : (Run.visit (o.saga.served World.server).policyFor (o.saga.steps.map (Step.served World.server))).run.run
      (.start (o.effective r), w) = pure (came, (ctx, w'))) :
    ((o.complete r).serve World.server).run w = (concluded (came, ctx), w') := by
  have hsaga := Saga.serve_of_served h
  rw [complete_eq_concluded, Program.run_serve_bind, hsaga]
  rfl

/-- As many failures of the grant as can be counted, and as many retries, leave no room for the attempt that is due. -/
theorem complete_overruns (o : Operation) (r : Request) {books : Books}
    (hloads : (Loading.load.runIn (.start (o.effective r)) ⟨books, {}⟩).1.1.isOk = true)
    (hearned : 0 < (Loading.load.runIn (.start (o.effective r)) ⟨books, {}⟩).1.2.userEarned)
    (hretries : (o.saga.policyFor UserReward.step).maxRetries.toNat = attemptCounterMax) :
    ∃ w, ((o.complete r).serve World.server).run ⟨books, { grants := attemptCounterMax }⟩ =
      (.error .attemptCounterFull, w) := by
  let most : Faults := { grants := attemptCounterMax }
  have hmost : most.Bounds most :=
    .ahead (Nat.le_refl _) (Nat.le_refl _) (Nat.le_refl _) (Nat.le_refl _)
  have htolerates : Tolerates (.calling Context fun c => most.awaiting c.method = 0) (fun _ _ => True) Loading.methods
      Loading.Loads := tolerates_not_retried (by decide)
  have hunawaited := Loading.confined_load.preserves htolerates (.start (o.effective r)) () trivial
  obtain ⟨⟨loaded, ctx⟩, books', hcalm, hload⟩ := Program.Obeys.serve_unawaited hmost hunawaited books
  rw [show Loading.load.runIn (.start (o.effective r)) ⟨books, {}⟩ = _ from hcalm] at hloads hearned
  cases loaded with
  | error e => cases hloads
  | ok success =>
    have hexecute : Loading.step.execute =
      settle "failed to load mission data" CompletionError.isValidation Loading.load := rfl
    have hloaded := run_served_execute hexecute hload
    have hfirst : (Run.attempt (Loading.step.served World.server).execute
        (o.saga.policyFor Loading.step).maxRetries.toNat 0).run.run (.start (o.effective r), ⟨books, most⟩) =
          pure (.ok ⟨1, .success success.message success.receipt⟩, (ctx, ⟨books', most⟩)) := by
      rw [Run.run_attempt_settled (by decide) (.inl (congrArg (·.1.isRetryable) hloaded)), hloaded]
      rfl
    have hsecond : (Run.visit (o.saga.served World.server).policyFor
        ([UserReward.step, Advance.step, Closing.step, GuildReward.step, Sharing.step].map
          (Step.served World.server))).run.run (ctx, ⟨books', most⟩) = pure (.error .attemptCounterFull, _) :=
      Run.run_visit_interrupted _ rfl (UserReward.run_attempt_struck hearned (Nat.le_of_eq hretries.symm))
    obtain ⟨⟨ctx', w⟩, hvisit⟩ : ∃ s, (Run.visit (o.saga.served World.server).policyFor
        (o.saga.steps.map (Step.served World.server))).run.run (.start (o.effective r), ⟨books, most⟩) =
          pure (.error .attemptCounterFull, s) := by
      rw [o.steps_saga]
      exact ⟨_, Run.run_visit_interrupted_later rfl hfirst rfl hsecond⟩
    exact ⟨w, serve_complete_of_visit hvisit⟩

/-- Failures of grants, counts, additions to a guild and publications lie ahead, as many of each at most as the retries
of the step that they strike, and fewer than can be counted. If nobody takes part twice, a completion comes to the same
result and leaves the same books as with no failure ahead, and its log differs in numbers of attempts only. -/
theorem complete_absorbs (o : Operation) (r : Request) {books : Books} (hkeyed : books.Keyed) (honce : books.PartsOnce)
    {server server' : Server World} (hserver : server.InMemory) (hserver' : server'.InMemory) {g c a f : ℕ}
    (hg : g ≤ (o.saga.policyFor UserReward.step).maxRetries.toNat)
    (hc : c ≤ (o.saga.policyFor Advance.step).maxRetries.toNat)
    (ha : a ≤ (o.saga.policyFor GuildReward.step).maxRetries.toNat)
    (hf : f ≤ (o.saga.policyFor Sharing.step).maxRetries.toNat)
    (hroom : ∀ n ∈ [g, c, a, f], n < attemptCounterMax) :
    ∃ result audit audit' w w',
      ((o.complete r).serve server).run ⟨books, {}⟩ = (.ok (result, audit), w) ∧
      ((o.complete r).serve server').run
        ⟨books, { grants := g, counts := c, guildAdditions := a, feedCreations := f }⟩ = (.ok (result, audit'), w') ∧
      w'.books = w.books ∧ audit'.Alike audit := by
  let most : Faults := { grants := g, counts := c, guildAdditions := a, feedCreations := f }
  have hmost : most.Bounds most :=
    .ahead (Nat.le_refl g) (Nat.le_refl c) (Nat.le_refl a) (Nat.le_refl f)
  have hcountable (m : Method) : most.awaiting m < attemptCounterMax := by
    have hmem : most.awaiting m ∈ [g, c, a, f] ∨ most.awaiting m = 0 := by
      cases m <;> simp [most, Faults.awaiting]
    obtain hmem | hzero := hmem
    · exact hroom _ hmem
    · rw [hzero]
      decide
  have houtlasts : o.Outlasts most o.saga.steps fun ctx books => ctx = .start (o.effective r) ∧ books.Keyed :=
    o.outlasts_all (o.effective r) hg hc ha hf hcountable
  obtain ⟨run, ⟨ctx, w⟩, run', ⟨ctx', w'⟩, hcalm, hrun, halike, hsame, -⟩ :=
    houtlasts (.start (o.effective r), ⟨books, most⟩) hmost ⟨rfl, hkeyed⟩
  obtain ⟨result, hresult⟩ := exists_concluded run ctx
  have hctx : ctx' = ctx := congrArg Prod.fst hsame
  have hbooks : w'.books = w.books := congrArg (fun s => s.2.books) hsame
  have hresult' : run'.result = run.result := halike.result
  rw [o.serve_complete_inMemory r hserver hkeyed honce, o.serve_complete_inMemory r hserver' hkeyed honce]
  refine ⟨result, run.audit, run'.audit, w, w', ?_, ?_, hbooks, halike.audit⟩
  · exact (serve_complete_of_visit hcalm).trans (by rw [hresult run.audit])
  · refine (serve_complete_of_visit hrun).trans ?_
    rw [hctx, ← hresult run'.audit, ← hresult']

end Operation

namespace Fixture

def dogged : Operation where
  settings :=
    { steps := [("grant_user_experience", ⟨1, 0⟩), ("update_participant_progress", ⟨2, 0⟩),
        ("grant_guild_experience", ⟨1, 0⟩), ("create_feed_from_mission", ⟨1, 0⟩)] }
  valid := rfl

def rejoined : World :=
  (plain ++ [Disturbance.putParticipant ⟨11, 100, "user-1", .withdrawn, 0⟩]).foldl World.disturb {}

/-- Of several participants of a user in a mission it finds the last. -/
def lastFound : Server World
  | .findParticipant mission user => fun w =>
    (.ok (w.books.participants.values.reverse.find? fun p => p.mission == mission && p.user == user), w)
  | c => World.server c

/-- Tries to reward the user as often as can be counted, and once more. -/
def endless : Operation where
  settings := { steps := [("grant_user_experience", ⟨4294967295, 0⟩)] }
  valid := rfl

end Fixture

open Fixture

theorem Fixture.lastFound_inMemory : lastFound.InMemory := by
  intro c w hkeyed
  cases c with
  | findParticipant mission user =>
    have hrun : (lastFound (.findParticipant mission user)).run w =
        (.ok (w.books.participants.values.reverse.find? fun p => p.mission == mission && p.user == user), w) := rfl
    rw [hrun]
    cases hfound : w.books.participants.values.reverse.find? fun p => p.mission == mission && p.user == user with
    | none =>
      have hnone : w.books.participantOf mission user = none := by
        rw [Books.participantOf, List.find?_eq_none]
        rw [List.find?_eq_none] at hfound
        exact fun p hp => hfound p (List.mem_reverse.2 hp)
      rw [← hnone]
      exact .same (.findParticipant mission user)
    | some p =>
      obtain ⟨id, hid⟩ := Table.mem_values_iff.1 (List.mem_reverse.1 (List.mem_of_find?_eq_some hfound))
      have hmine := List.find?_some hfound
      rw [Bool.and_eq_true, beq_iff_eq, beq_iff_eq] at hmine
      have hstored : w.books.participants.get? p.id = some p := hkeyed.participants id p hid ▸ hid
      exact .found ⟨hstored, hmine.1, hmine.2⟩
  | _ => exact .same _

theorem Operation.complete_absorbs_hampered : ∃ completion audit audit' w w',
    ((dogged.complete request).serve World.server).run ⟨hampered.books, {}⟩ = (.ok (.ok completion, audit), w) ∧
    ((dogged.complete request).serve lastFound).run
      ⟨hampered.books, { grants := 1, counts := 2, guildAdditions := 1, feedCreations := 1 }⟩ =
        (.ok (.ok completion, audit'), w') ∧
    w'.books = w.books ∧ audit'.Alike audit ∧ completion.feed = some 42 := by
  have hkeyed : hampered.books.Keyed := World.keyed_foldl_disturb .empty _
  have honce : hampered.books.PartsOnce := .of_stored (by decide +kernel)
  have hfeed : (((dogged.complete request).serve World.server).run ⟨hampered.books, {}⟩).1.toOption.any
      (·.1.toOption.any (·.feed == some 42)) = true := by
    decide +kernel
  obtain ⟨result, audit, audit', w, w', hcalm, hrun, hbooks, halike⟩ :=
    dogged.complete_absorbs request hkeyed honce World.server_inMemory lastFound_inMemory (g := 1) (c := 2) (a := 1)
      (f := 1) (by decide) (by decide) (by decide) (by decide) (by decide)
  rw [hcalm] at hfeed ⊢
  cases result with
  | ok completion => exact ⟨completion, audit, audit', w, w', rfl, hrun, hbooks, halike, beq_iff_eq.1 hfeed⟩
  | error e => cases hfeed

/-- With a second participant of the user it shows which of them is found. With as many failures as can be counted, and
as many retries, the completion is broken off. -/
theorem Operation.complete_shows_choice_and_count :
    (rejoined.books.Keyed ∧ ∃ completion audit w e audit' w',
      ((dogged.complete request).serve World.server).run rejoined = (.ok (.ok completion, audit), w) ∧
      ((dogged.complete request).serve lastFound).run rejoined = (.ok (.error e, audit'), w')) ∧
    (endless.saga.policyFor UserReward.step).maxRetries.toNat = attemptCounterMax ∧ ∃ completion audit w w',
      ((endless.complete request).serve World.server).run ⟨hampered.books, {}⟩ = (.ok (.ok completion, audit), w) ∧
      ((endless.complete request).serve World.server).run ⟨hampered.books, { grants := attemptCounterMax }⟩ =
        (.error .attemptCounterFull, w') := by
  have hkeyed : rejoined.books.Keyed := World.keyed_foldl_disturb .empty _
  have hfirst : (((dogged.complete request).serve World.server).run rejoined).1.toOption.any (·.1.isOk) = true := by
    decide +kernel
  have hlast : (((dogged.complete request).serve lastFound).run rejoined).1.toOption.any (!·.1.isOk) = true := by
    decide +kernel
  have hcalm : (((endless.complete request).serve World.server).run ⟨hampered.books, {}⟩).1.toOption.any
      (·.1.isOk) = true := by
    decide +kernel
  have hretries : (endless.saga.policyFor UserReward.step).maxRetries.toNat = attemptCounterMax := by decide
  have hloads : (Loading.load.runIn (.start (endless.effective request)) ⟨hampered.books, {}⟩).1.1.isOk = true := by
    decide +kernel
  obtain ⟨w', hover⟩ := endless.complete_overruns request hloads (by decide +kernel) hretries
  refine ⟨⟨hkeyed, ?_⟩, hretries, ?_⟩
  · generalize ((dogged.complete request).serve World.server).run rejoined = run at hfirst ⊢
    generalize ((dogged.complete request).serve lastFound).run rejoined = run' at hlast ⊢
    obtain ⟨_ | ⟨_ | completion, audit⟩, w⟩ := run
    · cases hfirst
    · cases hfirst
    · obtain ⟨_ | ⟨e | _, audit'⟩, w'⟩ := run'
      · cases hlast
      · exact ⟨completion, audit, w, e, audit', w', rfl, rfl⟩
      · cases hlast
  · generalize ((endless.complete request).serve World.server).run ⟨hampered.books, {}⟩ = run at hcalm ⊢
    obtain ⟨_ | ⟨_ | completion, audit⟩, w⟩ := run
    · cases hcalm
    · cases hcalm
    · exact ⟨completion, audit, w, w', rfl, hover⟩

end Missions
