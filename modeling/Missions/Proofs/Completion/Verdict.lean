import Missions.Proofs.Completion.Knowledge
import Missions.Proofs.Completion.Rollback
import Missions.Proofs.Saga.Blame
import Missions.Proofs.Saga.Serving

/-! After loading no step misses anything in the context, so what came to its end is reported as a completion. What
was aborted is reported as an error that says what the audit log and the calls of the steps say. -/

namespace Missions

open Procedure

theorem AuditLog.stepsWithStatus_eq (log : AuditLog) (status : StepStatus) :
    log.stepsWithStatus status = (log.records.zipIdx.filter (·.1.status == status)).map (·.1.name) := by
  rw [stepsWithStatus]
  conv_lhs => rw [← List.zipIdx_map_fst 0 log.records]
  rw [List.filter_map, List.map_map]
  rfl

/-! ### Errors -/

namespace CompletionError

/-- What the step that stopped a completion reported. -/
def stepMessage : CompletionError → Option String
  | stopped _ message _ | stoppedPartlyUndone _ message _ _ => some message
  | _ => none

/-- The error of a completion that was stopped, as the audit log and the calls of the steps tell it. -/
structure Conveys (e : CompletionError) (entries : List (Entry CompletionError Receipt)) (audit : AuditLog) :
    Prop where
  stopped : audit.stepsWithStatus .compensationFailed = [] → ∃ step message cause, e = .stopped step message cause
  stoppedPartlyUndone : audit.stepsWithStatus .compensationFailed ≠ [] →
    ∃ step message cause failures, e = .stoppedPartlyUndone step message cause failures
  /-- One record is that of a step that failed, and what its last attempt failed with is the cause. -/
  failed : ∃ record position, audit.records.zipIdx.filter (·.1.status == .failed) = [(record, position)] ∧
    e.failedStep = some record.name ∧ e.stepMessage = record.message ∧
    (executionsAt position entries).getLast?.map (·.cause) = some e.stepCause
  undoFailures : List.Forall₂ (UndoFailure.Recorded entries) e.undoFailures
    (audit.records.zipIdx.filter (·.1.status == .compensationFailed)).reverse

theorem conveys_ofAborted {entries : List (Entry CompletionError Receipt)} {audit : AuditLog}
    {aborted : Aborted CompletionError} (h : Blames entries audit.records.zipIdx aborted) :
    (ofAborted aborted).Conveys entries audit := by
  have hnone : audit.stepsWithStatus .compensationFailed = [] ↔
      audit.records.zipIdx.filter (·.1.status == .compensationFailed) = [] := by
    rw [AuditLog.stepsWithStatus_eq, List.map_eq_nil_iff]
  constructor
  · intro hall
    obtain ⟨step, message, cause, rfl⟩ := h.fully.2 (hnone.1 hall)
    exact ⟨step, message, cause, rfl⟩
  · intro hsome
    cases aborted with
    | undone step message cause => exact absurd (hnone.2 (h.fully.1 ⟨step, message, cause, rfl⟩)) hsome
    | partlyUndone step message cause failures => exact ⟨step, message, cause, failures, rfl⟩
  · obtain ⟨record, position, hfilter, hname, hmessage, hcause⟩ := h.failed
    refine ⟨record, position, hfilter, ?_, ?_, ?_⟩
    · cases aborted <;> exact congrArg some hname.symm
    · cases aborted <;> exact hmessage.symm
    · rw [hcause, stepCause_ofAborted]
  · rw [undoFailures_ofAborted]
    exact h.undoFailures

end CompletionError

/-! ### Nothing is missing -/

/-- From good states on, no call answers that a context lacks something. -/
def Server.Informed {S : Type} (server : Server S) (good : S → Prop) : Prop :=
  ∀ c s, good s → (∀ what, ((server c).run s).1 ≠ .error (.missingContext what)) ∧ good ((server c).run s).2

theorem Server.FailsCleanly.informed {S : Type} {server : Server S} {may : CompletionError → Prop} {books : S → Books}
    {good : S → Prop} (h : server.FailsCleanly may books good) (hmay : ∀ what, ¬ may (.missingContext what)) :
    server.Informed good := by
  intro c s hs
  obtain ⟨hanswers, hgood⟩ := h c s hs
  refine ⟨fun what hmissing => ?_, hgood⟩
  generalize ((server c).run s).1 = answer, books ((server c).run s).2 = books' at hanswers hmissing
  cases hanswers with
  | performed | claimLost => cases hmissing
  | failed _ he =>
    cases hmissing
    exact hmay what he

/-- Every record may be known, and only the error of a context that lacks something may not come. -/
def Knowledge.unlimited : Knowledge where
  mission _ := True
  participant _ := True
  execution _ := True
  pinned _ := True
  error e := ∀ what, e ≠ .missingContext what
  participant_with _ _ _ _ := trivial
  execution_with _ _ _ := trivial
  pinned_with _ _ _ := trivial
  error_other _ h := h

theorem Server.Informed.governs {S : Type} {server : Server S} {good : S → Prop} (h : server.Informed good)
    (r : Request) : (Knowledge.unlimited.protocol r).Governs server (fun _ => ()) good := by
  intro here c s hs
  obtain ⟨hanswer, hgood⟩ := h c s hs
  refine ⟨?_, hgood⟩
  change Came _ _ ((server c).run s).1
  cases hserved : ((server c).run s).1 with
  | ok answer => cases c <;> first | trivial | exact fun _ _ => trivial
  | error e => exact fun what he => hanswer what (by rw [hserved, he])

/-- The server is in a good state, and no call of a step has failed for something missing in the context. -/
structure Chronicle.Informed {S : Type} (good : S → Prop) (h : Chronicle (Context × S) CompletionError Receipt) :
    Prop where
  good : good h.state.2
  entries : ∀ entry ∈ h.entries, ∀ what, entry.result.cause ≠ some (.missingContext what)

section

variable {S : Type} {server : Server S} {good : S → Prop} {r : Request} {m : Mission}

theorem obeys_note_informed (hserver : server.Informed good) {act : StateT Context (Program Context) CompletionResult}
    {Q : CompletionResult × Context → Prop} {h : Chronicle (Context × S) CompletionError Receipt} (hh : h.Informed good)
    (hact : (act.run h.state.1).Obeys (Knowledge.unlimited.protocol r)
      (fun x _ => (∀ e, x.1.cause = some e → Knowledge.unlimited.error e) ∧ Q x) ()) (c : StepCall) :
    Logic.plain.Obeys ((Chronicle.note c fun s => (act.run s.1).served server s.2).run h)
      (fun x _ => x.2.Informed good ∧ Q (x.1, x.2.state.1)) () := by
  obtain ⟨result, ctx, w, hserved, ⟨hcause, hQ⟩, hgood⟩ := hact.served (hserver.governs r) hh.good
  have hact : StateT.run (fun s => (act.run s.1).served server s.2) h.state = pure (result, (ctx, w)) := hserved
  rw [Chronicle.run_note, hact]
  refine ⟨⟨hgood, fun entry hentry what => ?_⟩, hQ⟩
  rcases List.mem_append.1 hentry with hold | hnew
  · exact hh.entries entry hold what
  · rw [List.mem_singleton.1 hnew]
    exact fun hmissing => hcause _ hmissing what rfl

theorem keeps_informed (hserver : server.Informed good) {step : CompletionStep}
    (hstep : step ∈ [UserReward.step, Advance.step, Closing.step, GuildReward.step, Sharing.step]) (position : Nat) :
    Run.Keeps .plain (fun h _ => h.Informed good ∧ Knowledge.unlimited.Loaded r m h.state.1)
      ((step.served server).chronicled position) := by
  have hm : Knowledge.unlimited.mission m := trivial
  rcases Knowledge.skips_or_bears (r := r) hm step hstep with hskips | hbears
  · exact .inl fun h _ hh => hskips _ hh.2
  · exact .inr ⟨fun h _ hh => obeys_note_informed hserver hh.1 (hbears.execute _ hh.2) _,
      fun h _ hh => obeys_note_informed hserver hh.1 (hbears.compensate _ hh.2) _⟩

/-- No call of any step fails for something missing in the context, and what comes to its end has loaded it. -/
theorem passes_informed (hserver : server.Informed good)
    (policy : Step (Chronicle (Context × S) CompletionError Receipt) Id CompletionError Receipt → RetryPolicy) :
    Run.Passes .plain policy
      (Step.chronicledFrom ([Loading.step, UserReward.step, Advance.step, Closing.step, GuildReward.step,
        Sharing.step].map (Step.served server)) 0)
      (fun h _ => h.Informed good ∧ h.state.1 = .start r)
      fun run h _ => h.Informed good ∧
        (run.result.isOk = true → ∃ m, Knowledge.unlimited.Loaded r m h.state.1) := by
  have hrest (m : Mission) : Run.Passes .plain policy
      (Step.chronicledFrom ([UserReward.step, Advance.step, Closing.step, GuildReward.step, Sharing.step].map
        (Step.served server)) 1)
      (fun h _ => h.Informed good ∧ Knowledge.unlimited.Loaded r m h.state.1)
      fun _ h _ => h.Informed good ∧ Knowledge.unlimited.Loaded r m h.state.1 := by
    refine Run.passes_of_keeps fun step' hstep' => ?_
    obtain ⟨⟨served, position⟩, hmem, rfl⟩ := List.mem_map.1 hstep'
    obtain ⟨step, hstep, rfl⟩ := List.mem_map.1 (List.fst_mem_of_mem_zipIdx hmem)
    exact keeps_informed hserver hstep position
  let K (h : Chronicle (Context × S) CompletionError Receipt) (_ : Unit) : Prop :=
    h.Informed good ∧ ∃ m, Knowledge.unlimited.Loaded r m h.state.1
  refine .apply (T := fun tries h g => h.Informed good ∧ Knowledge.unlimited.Reads r tries.result h.state.1 g)
    (V := fun _ _ => K)
    (fun _ _ _ => rfl) (fun h g hh => ?_) (fun tries hok h g hh => ?_) (fun tries run h g _ hh => ?_)
    (fun tries h g _ _ hh => ⟨hh.1, nofun⟩) fun tries _ hpasses => nomatch hpasses
  · refine Run.attempted_all (J := fun _ h _ => h.Informed good ∧ h.state.1 = .start r) (fun _ h g hh => ?_) _ hh
    have hloading := Knowledge.unlimited.obeys_loading (r := r)
    rw [← hh.2] at hloading
    have hnoted := obeys_note_informed (Q := fun x => Knowledge.unlimited.Reads r x.1 x.2 ()) hserver hh.1
      (hloading.mono fun x _ hx => ⟨hx.1, hx⟩) (.execute 0)
    refine Logic.plain.mono hnoted fun x g hx => ⟨fun hretry => ⟨hx.1, ?_⟩, hx⟩
    obtain ⟨_ | _ | _, h⟩ := x
    · cases hretry
    · exact hx.2.2
    · cases hretry
  · obtain ⟨m, -, hm⟩ : ∃ m, Knowledge.unlimited.mission m ∧ Knowledge.unlimited.Loaded r m h.state.1 := by
      simpa [hok] using hh.2.2
    exact Logic.plain.mono (hrest m h g ⟨hh.1, hm⟩) fun x g hx => hx.mono (fun _ _ _ hK => ⟨hK.1, m, hK.2⟩) id
  · have hclosing : Logic.plain.Obeys ((Run.closing ((Loading.step.served server).chronicled 0) tries run).run h)
        (fun x g => K x.2 g) g := by
      refine Run.obeys_closing (fun _ _ hK => hK) (fun h g hK => ?_) tries run hh
      have hnothing : (Loading.step.compensate.run h.state.1).Obeys (Knowledge.unlimited.protocol r)
          (fun x _ => (∀ e, x.1.cause = some e → Knowledge.unlimited.error e) ∧
            ∃ m, Knowledge.unlimited.Loaded r m x.2) () := ⟨nofun, hK.2⟩
      exact obeys_note_informed hserver hK.1 hnothing (.compensate 0)
    exact Logic.plain.mono hclosing fun x g hK => ⟨hK.1, fun _ => hK.2⟩

end

/-! ### Outcomes -/

namespace Operation

/-- The outcome of a completion is that of its saga. No call of a step fails for something missing in the context. What
comes to its end is a completion made of the last context and the report, and the error of what does not says what the
audit log and the calls of the steps say. -/
theorem complete_conveys (o : Operation) (hcount : o.Countable) (r : Request) {S : Type} {server : Server S}
    {good : S → Prop} (hserver : server.Informed good) {s : S} (hs : good s) :
    ∃ run h result,
      (o.saga.served server).chronicled.run.run.run ⟨(.start (o.effective r), s), []⟩ = pure (.ok run, h) ∧
      ((o.saga.run.run.run (.start (o.effective r))).serve server).run s = ((.ok run, h.state.1), h.state.2) ∧
      ((o.complete r).serve server).run s = (.ok (result, run.audit), h.state.2) ∧
      (∀ entry ∈ h.entries, ∀ what, entry.result.cause ≠ some (.missingContext what)) ∧
      (∀ report, run.result = .ok report → ∃ completion, result = .ok completion ∧
        Completion.ofRun h.state.1 report = .ok completion ∧ completion.executedSteps = report.executed ∧
        completion.skippedSteps = report.skipped ∧
        completion.feedError = (report.optionalFailures.map (·.message)).head?) ∧
      ∀ e, result = .error e → e.Conveys h.entries run.audit := by
  have hretries : ∀ step ∈ (o.saga.served server).steps,
      ((o.saga.served server).policyFor step).maxRetries.toNat < attemptCounterMax := by
    intro step' hstep'
    obtain ⟨step, hstep, rfl⟩ := List.mem_map.1 hstep'
    exact hcount.policyFor hstep
  obtain ⟨run, h, hrun, htells⟩ := (o.saga.served server).run_tells hretries (.start (o.effective r), s)
  have hserved : ((o.saga.run.run.run (.start (o.effective r))).serve server).run s =
      ((.ok run, h.state.1), h.state.2) :=
    Saga.serve_of_served ((o.saga.served server).run_of_chronicled hrun)
  obtain ⟨hinformed, hloaded⟩ : h.Informed good ∧
      (run.result.isOk = true → ∃ m, Knowledge.unlimited.Loaded (o.effective r) m h.state.1) := by
    have hpasses := passes_informed (r := o.effective r) hserver (o.saga.served server).chronicled.policyFor
    rw [← o.steps_saga] at hpasses
    have hstart : Chronicle.Informed good ⟨(.start (o.effective r), s), []⟩ := ⟨hs, List.forall_mem_nil _⟩
    obtain ⟨run', h', hrun', hinformed⟩ :=
      Run.Passes.run hpasses (Saga.retries_chronicled hretries) ⟨hstart, rfl⟩
    obtain ⟨hresult, rfl⟩ := Prod.mk.inj (hrun.symm.trans hrun')
    cases hresult
    exact hinformed
  have hcomplete : ((o.complete r).serve server).run s = (concluded (.ok run, h.state.1), h.state.2) := by
    rw [complete_eq_concluded, Program.run_serve_bind, hserved]
    rfl
  obtain ⟨aborted | report, audit⟩ := run
  · refine ⟨_, h, _, hrun, hserved, hcomplete, hinformed.entries, ?_, ?_⟩
    · rintro report ⟨⟩
    · rintro e ⟨⟩
      exact CompletionError.conveys_ofAborted (htells.blames rfl)
  · obtain ⟨m, hm⟩ := hloaded rfl
    rw [concluded, Completion.ofRun, hm.missionId] at hcomplete
    refine ⟨_, h, _, hrun, hserved, hcomplete, hinformed.entries, ?_, ?_⟩
    · rintro report ⟨⟩
      refine ⟨_, rfl, ?_, rfl, rfl, rfl⟩
      rw [Completion.ofRun, hm.missionId]
    · rintro e ⟨⟩

end Operation

open Fixture in
theorem Operation.complete_conveys_broken :
    ∃ e audit entries, (((hasty.complete request).serve World.server).run broken).1 = .ok (.error e, audit) ∧
      e.stepsNotUndone = ["update_participant_progress", "grant_user_experience"] ∧ e.Conveys entries audit ∧
      ∀ entry ∈ entries, ∀ what, entry.result.cause ≠ some (.missingContext what) := by
  have hinformed := (World.server_failsCleanly (∀ what, · ≠ .missingContext what)).informed
    fun what hmay => hmay what rfl
  have hhands : broken.faults.Hands (∀ what, · ≠ .missingContext what) := ⟨nofun, nofun, nofun⟩
  have hnames : notUndone? (((hasty.complete request).serve World.server).run broken).1 =
      some ["update_participant_progress", "grant_user_experience"] := by decide +kernel
  obtain ⟨run, h, result, -, -, hrun, hentries, -, hconveys⟩ :=
    hasty.complete_conveys (by decide) request hinformed hhands
  rw [hrun] at hnames ⊢
  cases result with
  | ok completion => cases hnames
  | error e => exact ⟨e, _, h.entries, rfl, Option.some.inj hnames, hconveys e rfl, hentries⟩

end Missions
