import Missions.Proofs.Completion.Blindness
import Missions.Proofs.Completion.Footprint
import Missions.Proofs.Completion.Knowledge
import Missions.Proofs.Completion.Rollback
import Missions.Proofs.Saga.Tail

/-! Whether a completion is to be shared, how often that is tried, and what is answered to the calls that it takes,
all that shows in nothing but what the completion reports about its sharing. -/

namespace Missions

open Procedure

/-! ### Settings -/

/-- Settings that differ at most in whether completions may be shared, and in how often that is retried. -/
def Settings.SharingAside (s s' : Settings) : Prop :=
  s'.steps.filter (fun row => normalize row.1 != Sharing.step.name) =
    s.steps.filter fun row => normalize row.1 != Sharing.step.name

theorem Settings.filter_retryOverrides (s : Settings) (name : String) : s.retryOverrides.filter (·.1 != name) =
    (s.steps.filter fun row => normalize row.1 != name).map fun (name, retry) => (normalize name, retry.policy) := by
  simp only [retryOverrides, List.filter_map, Function.comp_def]

namespace Operation

theorem policyFor_override (saga : Saga Context (Program Context) CompletionError Receipt) (name : String)
    (policy : RetryPolicy) (step : CompletionStep) :
    (saga.override name policy).policyFor step = if step.name = name then policy else saga.policyFor step := by
  rw [Saga.policyFor, Saga.override]
  split
  · next hname => rw [hname, Table.get?_insert_self, Option.getD_some]
  · next hname => rw [Table.get?_insert_of_ne _ hname, Saga.policyFor]

theorem policyFor_foldl_filter {name : String} {step : CompletionStep} (hstep : step.name ≠ name)
    (overrides : List (String × RetryPolicy)) {saga saga' : Saga Context (Program Context) CompletionError Receipt}
    (h : saga.policyFor step = saga'.policyFor step) :
    (overrides.foldl (fun saga (name, policy) => saga.override name policy) saga).policyFor step =
      ((overrides.filter (·.1 != name)).foldl (fun saga (name, policy) => saga.override name policy) saga').policyFor
        step := by
  induction overrides generalizing saga saga' with
  | nil => exact h
  | cons row rest ih =>
    obtain ⟨name', policy⟩ := row
    by_cases hname : name' = name
    · rw [List.filter_cons_of_neg (by simp [hname]), List.foldl_cons]
      exact ih (by rw [policyFor_override, if_neg (hname ▸ hstep), h])
    · rw [List.filter_cons_of_pos (by simp [hname]), List.foldl_cons, List.foldl_cons]
      exact ih (by rw [policyFor_override, policyFor_override, h])

theorem policyFor_sharingAside {o o' : Operation} (h : o.settings.SharingAside o'.settings) {step : CompletionStep}
    (hstep : step.name ≠ Sharing.step.name) : o'.saga.policyFor step = o.saga.policyFor step := by
  have hpolicy (o : Operation) : o.saga.policyFor step =
      ((o.settings.retryOverrides.filter (·.1 != Sharing.step.name)).foldl
        (fun saga (name, policy) => saga.override name policy) untuned).policyFor step :=
    policyFor_foldl_filter hstep _ rfl
  rw [hpolicy, hpolicy, Settings.filter_retryOverrides, Settings.filter_retryOverrides, h]

end Operation

/-! ### Before sharing -/

def Operation.decisive : List CompletionStep :=
  [Loading.step, UserReward.step, Advance.step, Closing.step, GuildReward.step]

/-- A call to the feed service or to the keeper of the shared flags. -/
def Call.Sharing (c : Call) : Prop := Missions.Sharing.methods c.method = true

def Call.Quiet (c : Call) : Prop := ¬ c.Sharing

theorem tolerates_quiet {r : Request} {methods : Method → Bool} {changes : Context → Context → Prop}
    (hmethods : ∀ m ∈ Method.all, methods m = true → Sharing.methods m = false)
    (hchanges : ∀ ctx ctx', changes ctx ctx' → ctx'.request = ctx.request) :
    Tolerates (.calling Context Call.Quiet) (fun ctx _ => ctx.request = r) methods changes where
  call hK hc :=
    ⟨fun hsharing => Bool.false_ne_true ((hmethods _ (Method.mem_all _) hc).symm.trans hsharing), fun _ _ _ => hK⟩
  change hK hchanged := (hchanges _ _ hchanged).trans hK

theorem Operation.visits_quiet (policy : CompletionStep → RetryPolicy) (r : Request) :
    Run.Visits (.calling Context Call.Quiet) policy decisive (fun ctx _ => ctx.request = r)
      (fun ctx _ => ctx.request = r) fun _ ctx _ => ctx.request = r := by
  have hmarked {names : List String} {methods : Method → Bool}
      (hmethods : ∀ m ∈ Method.all, methods m = true → Sharing.methods m = false) :
      Tolerates (.calling Context Call.Quiet) (fun (ctx : Context) _ => ctx.request = r) methods
        (Context.Marked names) :=
    tolerates_quiet hmethods fun (_ _ : Context) h => congrArg Context.Brief.request h.brief
  refine Run.Visits.of_keeps (K := fun (ctx : Context) _ => ctx.request = r) ?_
  simp only [decisive, List.forall_mem_cons, List.not_mem_nil, false_imp_iff, implies_true, and_true]
  exact ⟨Loading.keeps (tolerates_quiet (by decide) fun (_ _ : Context) h => h.request),
    UserReward.keeps (hmarked (by decide)).only, Advance.keeps (hmarked (by decide)),
    Closing.keeps (hmarked (by decide)), GuildReward.keeps (hmarked (by decide)).only⟩

/-! ### Sharing -/

theorem Context.eq_of_unshared {ctx ctx' : Context} (h : ctx'.unshared = ctx.unshared) :
    ∃ share feed, ctx = { ctx' with request := { ctx'.request with share }, feed } := by
  refine ⟨ctx.request.share, ctx.feed, ?_⟩
  change ctx = { ctx'.unshared with
    request := { ctx'.unshared.request with share := ctx.request.share }, feed := ctx.feed }
  rw [h]
  rfl

namespace Sharing

def Mentioned (report : Report CompletionError) : Prop :=
  report.skipped = [] ∧ (report.executed = [] ∨ report.executed = [step.name])

theorem Mentioned.executed_append {last : Report CompletionError} (h : Mentioned last)
    (report : Report CompletionError) : (report.append last).executed = report.executed ∨
      (report.append last).executed = report.executed ++ [step.name] := by
  rw [Report.append]
  rcases h.2 with hnone | hshared
  · exact .inl (by rw [hnone, List.append_nil])
  · exact .inr (by rw [hshared])

/-- Sharing calls nobody but those that it concerns, and leaves everything else in the context as it is. However it
goes, the run goes on to its end. -/
theorem passes_step (policy : CompletionStep → RetryPolicy) (u : Context) :
    Run.Passes (Protocol.calling Context Call.Sharing).logic policy [step] (fun ctx _ => ctx.unshared = u)
      fun run ctx _ => ctx.unshared = u ∧ ∃ report, run.result = .ok report ∧ Mentioned report := by
  have htolerates : Tolerates (.calling Context Call.Sharing) (fun (ctx : Context) _ => ctx.unshared = u) methods
      fun ctx ctx' => ctx'.unshared = ctx.unshared :=
    ⟨fun hK hc => ⟨hc, fun _ _ _ => hK⟩, fun hK hchanged => hchanged.trans hK⟩
  have hpublish := (confined_publish_feed fun _ _ => rfl).preserves htolerates
  have hpasses (tries : Tries CompletionError Receipt) (h : tries.result.isRejected = false) :
      (step.mandatory || tries.result.isRejected) = false := by rw [h]; rfl
  refine .apply (T := fun tries ctx _ => ctx.unshared = u ∧ tries.result.isRejected = false)
    (V := fun _ run ctx _ => ctx.unshared = u ∧ run = .ended) (fun _ _ _ => rfl) (fun ctx g hctx => ?_)
    (fun tries _ => .nil fun ctx g hT => ⟨hT.1, rfl⟩) ?_ (fun tries ctx g _ hlasts hT => ?_)
    fun tries _ _ => .nil fun ctx g hT => ⟨hT.1, _, rfl, rfl, .inl rfl⟩
  · refine Run.attempted_all (J := fun _ ctx _ => ctx.unshared = u) (fun _ ctx g hctx => ?_) _ hctx
    refine Program.Obeys.mono (hpublish.either hctx).settle fun r g hr => ?_
    cases hok : r.1.isSuccess with
    | true =>
      have hctx := hr.of_isSuccess hok
      exact ⟨fun _ => hctx, hctx, StepResult.isRejected_of_isSuccess hok⟩
    | false =>
      obtain ⟨e, -, hrejected, hctx⟩ := hr.of_failed hok
      exact ⟨fun _ => hctx, hctx, hrejected⟩
  · rintro tries run ctx g - ⟨hctx, rfl⟩
    exact ⟨hctx, _, rfl, rfl, .inr rfl⟩
  · rw [hpasses tries hT.2] at hlasts
    cases hlasts

theorem passing_step (policy : CompletionStep → RetryPolicy) : Run.Passing policy [step] := fun ctx => by
  refine (Program.Obeys.calling (fun _ _ => trivial) (passes_step policy ctx.unshared ctx () rfl)).mono fun r _ hr => ?_
  rintro run hrun
  obtain ⟨_, ctx⟩ := r
  obtain rfl := hrun
  obtain ⟨-, report, hreport, -⟩ := hr
  rw [hreport]
  rfl

theorem visits_unasked (policy : CompletionStep → RetryPolicy) {r : Request} (hr : r.share = false)
    {U : Aborted CompletionError → Context → Unit → Prop} :
    Run.Visits (.calling Context Call.Quiet) policy [step] (fun ctx _ => ctx.request = r) (fun ctx _ => ctx.request = r)
      U := by
  refine Completion.visits_passing rfl rfl (fun _ _ _ => rfl) fun ctx g hctx => ?_
  rw [publish, meets_bind, meets_get]
  dsimp only
  rw [if_pos (by rw [hctx, hr]; rfl)]
  exact hctx

end Sharing

/-! ### Servers -/

/-- A server that answers calls about sharing as it likes. All other calls it serves as the world in memory does that
`core` sees in it, and sharing leaves that world alone. -/
structure Server.SharesFreely {S : Type} (server : Server S) (core : S → World) : Prop where
  sharing : ∀ {c : Call}, c.Sharing → ∀ s, core ((server c).run s).2 = core s
  quiet : ∀ {c : Call}, c.Quiet → ∀ s,
    (World.server c).run (core s) = (((server c).run s).1, core ((server c).run s).2)

def Books.unshared (books : Books) : Books :=
  { books with feeds := [], nextFeed := 0, sharedExecutions := ∅, sharedInstances := ∅ }

theorem Books.unshared_perform_sharing (books : Books) {c : Call} (hc : c.Sharing) :
    (books.perform c).2.unshared = books.unshared := by
  cases c with
  | createFeed | deleteFeed => rfl
  | setShared target => cases target <;> rfl
  | _ => cases hc

theorem Books.completeExecution_unshared (books : Books) (id : Int) : books.unshared.completeExecution id =
    ((books.completeExecution id).1, (books.completeExecution id).2.unshared) := by
  have hsame : books.unshared.executions = books.executions := rfl
  rw [completeExecution, completeExecution, hsame]
  cases books.executions.get? id with
  | none => rfl
  | some x =>
    dsimp only
    split <;> rfl

theorem Books.completeInstance_unshared (books : Books) (id : Int) : books.unshared.completeInstance id =
    ((books.completeInstance id).1, (books.completeInstance id).2.unshared) := by
  have hsame : books.unshared.instances = books.instances := rfl
  rw [completeInstance, completeInstance, hsame]
  cases books.instances.get? id with
  | none => rfl
  | some i =>
    dsimp only
    split <;> rfl

theorem Books.perform_unshared (books : Books) {c : Call} (hc : c.Quiet) :
    books.unshared.perform c = ((books.perform c).1, (books.perform c).2.unshared) := by
  cases c with
  | createFeed | deleteFeed | setShared => exact absurd rfl hc
  | completeExecution id => exact books.completeExecution_unshared id
  | completeInstance id => exact books.completeInstance_unshared id
  | _ => rfl

def Faults.unshared (faults : Faults) : Faults :=
  { faults with feedCreations := 0, flagUpdates := 0, feedErrors := [], flagErrors := [] }

theorem Faults.unshared_strike_sharing (faults : Faults) {c : Call} (hc : c.Sharing) :
    (faults.strike c).2.unshared = faults.unshared := by
  cases c with
  | createFeed | setShared =>
    rw [strike]
    split <;> rfl
  | deleteFeed => rfl
  | _ => cases hc

theorem Faults.strike_unshared (faults : Faults) {c : Call} (hc : c.Quiet) :
    faults.unshared.strike c = ((faults.strike c).1, (faults.strike c).2.unshared) := by
  obtain ⟨grants, subtractions, additions, _, _, counts, saves, claims, _, _⟩ := faults
  cases c with
  | createFeed | deleteFeed | setShared => exact absurd rfl hc
  | grantExperience => cases grants <;> rfl
  | subtractExperience => cases subtractions <;> rfl
  | addGuildExperience => cases additions <;> rfl
  | countExecutions => cases counts <;> rfl
  | saveExecution => cases saves <;> rfl
  | completeExecution => cases claims <;> rfl
  | _ => rfl

namespace World

/-- The world without what is shared, and without the faults of sharing. -/
def unshared (w : World) : World := ⟨w.books.unshared, w.faults.unshared⟩

theorem server_sharesFreely : Server.SharesFreely server unshared where
  sharing {c} hc w := by
    have hfaults := w.faults.unshared_strike_sharing hc
    rw [run_server]
    generalize w.faults.strike c = struck at hfaults
    rcases struck with ⟨_ | answer, faults⟩
    · exact congrArg₂ mk (w.books.unshared_perform_sharing hc) hfaults
    · exact congrArg (mk _) hfaults
  quiet {c} hc w := by
    have hfaults := w.faults.strike_unshared hc
    have hbooks := w.books.perform_unshared hc
    rw [run_server, run_server, unshared, hfaults, hbooks]
    rcases w.faults.strike c with ⟨_ | answer, faults⟩ <;> rfl

end World

namespace Program

variable {σ α S : Type} {server : Server S} {core : S → World} {p : Program σ α} {Q : α → Unit → Prop}

theorem Obeys.serve_quiet (hserver : server.SharesFreely core) (h : p.Obeys (.calling σ Call.Quiet) Q ()) (s : S) :
    (p.serve World.server).run (core s) = (((p.serve server).run s).1, core ((p.serve server).run s).2) := by
  induction p generalizing s with
  | done a => rfl
  | call here c next ih =>
    have hserve {T : Type} (server : Server T) (t : T) : ((call here c next).serve server).run t =
      ((next ((server c).run t).1).serve server).run ((server c).run t).2 := rfl
    rw [hserve, hserve, hserver.quiet h.1]
    exact ih _ (h.2 _ () trivial) _

theorem Obeys.serve_sharing (hserver : server.SharesFreely core) (h : p.Obeys (.calling σ Call.Sharing) Q ()) (s : S) :
    core ((p.serve server).run s).2 = core s ∧ Q ((p.serve server).run s).1 () := by
  induction p generalizing s with
  | done a => exact ⟨rfl, h⟩
  | call here c next ih =>
    obtain ⟨hcore, hQ⟩ := ih ((server c).run s).1 (h.2 _ () trivial) ((server c).run s).2
    exact ⟨hcore.trans (hserver.sharing h.1 s), hQ⟩

end Program

/-! ### Completions -/

structure Completion.SharedAside (c c' : Completion) : Prop where
  rest : { c' with feed := c.feed, feedError := c.feedError, executedSteps := c.executedSteps } = c
  executedSteps : ∃ steps, ∀ d ∈ [c, c'], d.executedSteps = steps ∨ d.executedSteps = steps ++ [Sharing.step.name]

/-- Both results are completions that differ at most in their sharing, or both are the same error. -/
inductive Completion.ResultsAlike : Except CompletionError Completion → Except CompletionError Completion → Prop
  | ok {c c' : Completion} (h : c.SharedAside c') : ResultsAlike (.ok c) (.ok c')
  | error (e : CompletionError) : ResultsAlike (.error e) (.error e)

namespace Operation

variable {o o' : Operation} {r : Request}

def decided (o : Operation) (r : Request) : Program Context (Except Interruption (Run CompletionError) × Context) :=
  (Run.visit o.saga.policyFor decisive).run.run (.start (o.effective r))

theorem complete_eq_decided (o : Operation) (r : Request) : o.complete r =
    o.decided r >>= Run.resume (Run.followed o.saga.policyFor [Sharing.step]) >>= fun x => pure (concluded x) := by
  rw [complete_eq_concluded, Saga.run, steps_saga]
  exact congrArg (· >>= _) (Run.run_visit_append (Sharing.passing_step _) decisive _)

theorem seen_decided (h : o.settings.SharingAside o'.settings) (r : Request) : (o'.decided r).seen Context.unshared =
    (Run.visit o.saga.policyFor decisive).run.run (.start { r with share := false }) := by
  refine Run.read_visit (R := Context.unsharing) (List.forall₂_same.2 fun step hstep => ?_) (.start (o'.effective r))
  refine ⟨reads_unshared step hstep, policyFor_sharingAside h ?_⟩
  simp only [decisive, List.mem_cons, List.not_mem_nil, or_false] at hstep
  rcases hstep with rfl | rfl | rfl | rfl | rfl <;> decide

theorem obeys_complete_quiet (h : (o.effective r).share = false) :
    (o.complete r).Obeys (.calling Context Call.Quiet) (fun _ _ => True) () := by
  rw [complete_eq_decided, Program.obeys_bind, Program.obeys_bind]
  refine Program.Obeys.mono (visits_quiet o.saga.policyFor _ _ _ rfl) fun x _ hx => ?_
  obtain ⟨_ | ⟨aborted | report, audit⟩, ctx⟩ := x
  · trivial
  · trivial
  rw [Run.resume_ok, Run.followed_of_ok, Program.obeys_bind]
  refine Program.Obeys.mono (Sharing.visits_unasked (U := fun _ _ _ => True) _ h ctx _ hx) fun y _ _ => ?_
  obtain ⟨_ | _, _⟩ := y <;> trivial

/-- How a result follows from what the completion came to before its sharing. An undone completion stays as it is, any
other is reported together with what sharing came to. -/
inductive Follows : Except Interruption (Run CompletionError) × Context → Except CompletionError Completion → Prop
  | undone (aborted : Aborted CompletionError) (audit : AuditLog) (u : Context) :
    Follows (.ok ⟨.error aborted, audit⟩, u) (.error (.ofAborted aborted))
  | shared (report last : Report CompletionError) (audit : AuditLog) (ctx : Context) (hlast : Sharing.Mentioned last) :
    Follows (.ok ⟨.ok report, audit⟩, ctx.unshared) (Completion.ofRun ctx (report.append last))

theorem Follows.alike {x : Except Interruption (Run CompletionError) × Context}
    {result result' : Except CompletionError Completion} (h : Follows x result) (h' : Follows x result') :
    Completion.ResultsAlike result result' := by
  cases h with
  | undone aborted =>
    cases h'
    exact .error _
  | shared report last audit ctx hlast =>
    generalize hu : ctx.unshared = u at h'
    cases h' with
    | shared _ last' _ ctx' hlast' =>
      obtain ⟨share, feed, rfl⟩ := Context.eq_of_unshared hu
      have hmission : ({ ctx with request := { ctx.request with share }, feed } : Context).missionId =
        ctx.missionId := rfl
      rw [Completion.ofRun, Completion.ofRun, hmission]
      cases ctx.missionId with
      | none => exact .error _
      | some mission =>
        refine .ok ⟨?_, report.executed, ?_⟩
        · rw [Report.append, Report.append, hlast.1, hlast'.1]
          rfl
        · simp only [List.forall_mem_cons, List.not_mem_nil, false_imp_iff, implies_true, and_true]
          exact ⟨hlast.executed_append report, hlast'.executed_append report⟩

variable {S : Type} {server : Server S} {core : S → World}

theorem Countable.not_uncountable (h : o.Countable) {steps : List CompletionStep}
    (hsteps : steps ⊆ decisive ++ [Sharing.step]) : ¬ Run.Uncountable o.saga.policyFor steps := by
  rintro ⟨step, hstep, hfull⟩
  have hmem : step ∈ o.saga.steps := o.steps_saga ▸ hsteps hstep
  exact absurd (h.policyFor hmem) (Nat.not_lt.2 hfull)

/-- A completion ends, with a result that follows from what it came to before its sharing, and sharing leaves the world
as it was then. -/
theorem serve_complete (hserver : server.SharesFreely core) (hcount : o.Countable) {s : S}
    {base : (Except Interruption (Run CompletionError) × Context) × World}
    (hbase : (((o.decided r).seen Context.unshared).serve World.server).run (core s) = base) :
    ∃ result audit t, ((o.complete r).serve server).run s = (.ok (result, audit), t) ∧ Follows base.1 result ∧
      core t = base.2 := by
  have hquiet := visits_quiet o.saga.policyFor (o.effective r) (.start (o.effective r)) () rfl
  rw [Program.run_serve_seen, decided, hquiet.serve_quiet hserver s] at hbase
  have hends := hquiet.serve_calling server s
  rw [complete_eq_decided, Program.run_serve_bind, Program.run_serve_bind, decided]
  generalize (((Run.visit o.saga.policyFor decisive).run.run (.start (o.effective r))).serve server).run s = y
    at hbase hends
  subst hbase
  obtain ⟨⟨i | ⟨aborted | report, audit⟩, ctx⟩, s⟩ := y
  · exact absurd hends (hcount.not_uncountable (List.subset_append_left decisive [Sharing.step]))
  · exact ⟨_, _, _, rfl, .undone aborted audit _, rfl⟩
  · have hshares := Sharing.passes_step o.saga.policyFor ctx.unshared ctx () rfl
    obtain ⟨hcore, htail⟩ := Program.Obeys.serve_sharing hserver hshares s
    rw [Run.resume_ok, Run.followed_of_ok, Program.run_serve_bind]
    generalize (((Run.visit o.saga.policyFor [Sharing.step]).run.run ctx).serve server).run s = z at hcore htail
    obtain ⟨⟨i | tail, ctx'⟩, t⟩ := z
    · exact absurd htail (hcount.not_uncountable (List.subset_append_right decisive [Sharing.step]))
    · obtain ⟨hctx, last, hlast, hmentioned⟩ := htail
      obtain ⟨_, tailAudit⟩ := tail
      obtain rfl := hlast
      refine ⟨_, _, _, rfl, ?_, hcore⟩
      have hctx : ctx'.unshared = ctx.unshared := hctx
      dsimp only
      rw [← hctx]
      exact .shared report last audit ctx' hmentioned

/-- Two completions that differ in whether they are to be shared, in how often that is tried, and in what is answered to
the calls of sharing, come to the same but for what they report about their sharing. A completion that is not to be
shared makes no call of sharing. -/
theorem complete_discreet (hsettings : o.settings.SharingAside o'.settings) (hcount : o.Countable)
    (hcount' : o'.Countable) (r : Request) (share : Bool) {S S' : Type} {server : Server S} {server' : Server S'}
    {core : S → World} {core' : S' → World} (hserver : server.SharesFreely core)
    (hserver' : server'.SharesFreely core') {s : S} {s' : S'} (hcore : core' s' = core s) :
    (∃ result audit t result' audit' t',
      ((o.complete r).serve server).run s = (.ok (result, audit), t) ∧
      ((o'.complete { r with share }).serve server').run s' = (.ok (result', audit'), t') ∧
      Completion.ResultsAlike result result' ∧ core' t' = core t) ∧
    ((r.share && o.settings.feedEnabled) = false →
      (o.complete r).Obeys (.calling Context Call.Quiet) (fun _ _ => True) ()) := by
  refine ⟨?_, fun hoff => obeys_complete_quiet hoff⟩
  have hself : o.settings.SharingAside o.settings := rfl
  have hsame : (o'.decided { r with share }).seen Context.unshared = (o.decided r).seen Context.unshared :=
    (seen_decided hsettings { r with share }).trans (seen_decided hself r).symm
  obtain ⟨result, audit, t, hrun, hfollows, ht⟩ := serve_complete (r := r) hserver hcount (s := s) rfl
  obtain ⟨result', audit', t', hrun', hfollows', ht'⟩ :=
    serve_complete (r := { r with share }) hserver' hcount' (s := s') rfl
  rw [hsame, hcore] at hfollows' ht'
  exact ⟨result, audit, t, result', audit', t', hrun, hrun', hfollows.alike hfollows', ht'.trans ht.symm⟩

end Operation

namespace Fixture

/-- Tries to share up to three times, and everything else as often as the patient operation. -/
def insistent : Operation where
  settings :=
    { steps := [("Create-Feed-From-Mission", ⟨2, 0⟩), ("update_participant_progress", ⟨2, 0⟩),
        ("grant_guild_experience", ⟨1, 0⟩)] }
  valid := rfl

/-- The hampered world, in which sharing goes wrong twice as well. -/
def aloof : World :=
  [Disturbance.rejectFeedCreation (.alreadyCompleted "feed" 1), .failFlagUpdates 1].foldl World.disturb hampered

end Fixture

open Fixture in
theorem Operation.complete_discreet_insistent :
    ∃ c audit t c' audit' t',
      ((patient.complete { request with share := false }).serve World.server).run hampered = (.ok (.ok c, audit), t) ∧
      ((insistent.complete request).serve World.server).run aloof = (.ok (.ok c', audit'), t') ∧
      c.SharedAside c' ∧ c.feed = none ∧ c'.feed = some 43 ∧ t'.unshared = t.unshared ∧
      (patient.complete { request with share := false }).Obeys (.calling Context Call.Quiet) (fun _ _ => True) () := by
  have hfeed : (((patient.complete { request with share := false }).serve World.server).run hampered).1.toOption.any
      (·.1.toOption.any (·.feed == none)) = true := by decide +kernel
  have hfeed' : (((insistent.complete request).serve World.server).run aloof).1.toOption.any
      (·.1.toOption.any (·.feed == some 43)) = true := by decide +kernel
  have hsettings : patient.settings.SharingAside insistent.settings := rfl
  have hworlds : aloof.unshared = hampered.unshared := rfl
  obtain ⟨⟨result, audit, t, result', audit', t', hrun, hrun', halike, hcore⟩, hquiet⟩ :=
    complete_discreet hsettings (by decide) (by decide) { request with share := false } true
      World.server_sharesFreely World.server_sharesFreely hworlds
  rw [hrun] at hfeed
  rw [show ((insistent.complete request).serve World.server).run aloof = _ from hrun'] at hfeed'
  cases halike with
  | ok hshared =>
    exact ⟨_, audit, t, _, audit', t', hrun, hrun', hshared, beq_iff_eq.1 hfeed, beq_iff_eq.1 hfeed', hcore, hquiet rfl⟩
  | error e => cases hfeed

end Missions
