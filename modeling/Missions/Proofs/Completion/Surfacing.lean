import Missions.Proofs.Completion.Footprint
import Missions.Proofs.Completion.Outcome
import Missions.Proofs.Saga.Tail
import Missions.Rehearsal.Fixture

/-! The error that a call made by a step is answered is the cause of the step's failure, with two exceptions: a
claimed execution that cannot be given back has an error of its own, with both errors in it, and a feed entry that
cannot be deleted again is not mentioned. -/

namespace Missions

def Note.failures : Note (Call × CompletionError)
  | _, .ok _ => []
  | c, .error e => [(c, e)]

/-- The error that comes of the calls that failed, in their order. -/
inductive Surfaces : List (Call × CompletionError) → CompletionError → Prop
  | own (e : CompletionError) : Surfaces [] e
  | plain (c : Call) (e : CompletionError) : Surfaces [(c, e)] e
  | notReleased (c : Call) (e : CompletionError) (x : Execution) (release : CompletionError)
      (recording : c.method = .countExecutions ∨ c.method = .saveParticipant) :
      Surfaces [(c, e), (.saveExecution { x with status := .inProgress }, release)]
        (.executionNotReleased x.id e release)
  | notWithdrawn (target : Target) (e : CompletionError) (feed : Int) (deletion : CompletionError) :
      Surfaces [(.setShared target true, e), (.deleteFeed feed, deletion)] e

/-- The calls that failed on the way to an outcome: none to a value. -/
def Surfaced {α : Type} (failed : List (Call × CompletionError)) : Except CompletionError α → Prop
  | .ok _ => failed = []
  | .error e => Surfaces failed e

theorem surfaced_failures (c : Call) (answer : Except CompletionError c.Answer) :
    Surfaced (Note.failures c answer) answer := by
  cases answer with
  | ok a => rfl
  | error e => exact .plain c e

/-! ### Procedures -/

/-- Any answer may come to any call, and the calls that fail are noted down. -/
abbrev Protocol.failing : Protocol Context (Unit × List (Call × CompletionError)) :=
  (Protocol.calling Context fun _ => True).noting Note.failures

namespace Procedure

variable {α β : Type}

theorem meets_ask_failing {c : Call}
    {Q : Except CompletionError c.Answer → Context → Unit × List (Call × CompletionError) → Prop} {ctx : Context}
    {failed : List (Call × CompletionError)} : Meets (α := no_index _) .failing (ask c) Q ctx ((), failed) ↔
      ∀ answer, Q answer ctx ((), failed ++ Note.failures c answer) :=
  meets_ask_noting.trans ⟨fun h answer => h.2 answer () trivial, fun h => ⟨trivial, fun answer _ _ => h answer⟩⟩

theorem meets_query_failing {c : Call}
    {Q : Except CompletionError (Except CompletionError c.Answer) → Context →
      Unit × List (Call × CompletionError) → Prop} {ctx : Context} {failed : List (Call × CompletionError)} :
    Meets (α := no_index _) .failing (query c) Q ctx ((), failed) ↔
      ∀ answer, Q (.ok answer) ctx ((), failed ++ Note.failures c answer) :=
  meets_query_noting.trans (meets_ask_noting.symm.trans meets_ask_failing)

/-- Whatever is answered, the outcome tells of the calls that failed. -/
def SurfacesFailures (p : Procedure α) : Prop := ∀ ctx, p.Meets .failing (fun r _ g => Surfaced g.2 r) ctx ((), [])

theorem surfaces_pure (a : α) : (pure a : Procedure α).SurfacesFailures := fun _ => rfl

theorem surfaces_throw (e : CompletionError) : (throw e : Procedure α).SurfacesFailures := fun _ => .own e

theorem surfaces_get : (get : Procedure Context).SurfacesFailures := fun _ => rfl

theorem surfaces_modify (f : Context → Context) : (modify f : Procedure Unit).SurfacesFailures := fun _ => rfl

theorem surfaces_keep {t : SnapshotType} (key : SnapshotKey t) (v : t.Value) :
    (keep key v).SurfacesFailures := fun _ => rfl

theorem surfaces_require (found : Option α) (e : CompletionError) : (require found e).SurfacesFailures := by
  cases found with
  | none => exact surfaces_throw e
  | some a => exact surfaces_pure a

theorem surfaces_check (holds : Bool) (e : CompletionError) : (check holds e).SurfacesFailures := by
  cases holds with
  | false => exact surfaces_throw e
  | true => exact surfaces_pure ()

theorem surfaces_ask (c : Call) : SurfacesFailures (α := no_index _) (ask c) := fun _ =>
  meets_ask_failing.2 fun answer => surfaced_failures c answer

theorem SurfacesFailures.bind {p : Procedure α} {f : α → Procedure β} (hp : p.SurfacesFailures)
    (hf : ∀ a, (f a).SurfacesFailures) :
    (p >>= f).SurfacesFailures := by
  intro ctx
  refine meets_bind.2 ((hp ctx).mono fun r ctx g hr => ?_)
  obtain ⟨⟨⟩, failed⟩ := g
  cases r with
  | error e => exact hr
  | ok a =>
    obtain rfl : failed = [] := hr
    exact hf a ctx

theorem SurfacesFailures.andThen {p : Procedure α} {q : Procedure β} (hp : p.SurfacesFailures)
    (hq : q.SurfacesFailures) : (p >>= fun _ => q).SurfacesFailures :=
  hp.bind fun _ => hq

theorem Confined.surfaces {view : Context → Context} {methods : Method → Bool} {changes : Context → Context → Prop}
    {p : Procedure α} (h : Confined view false methods changes p) : p.SurfacesFailures := by
  induction h with
  | pure a => exact surfaces_pure a
  | throw e => exact surfaces_throw e
  | get_bind _ _ ih => exact surfaces_get.bind ih
  | modify => exact surfaces_modify _
  | ask => exact surfaces_ask _
  | query hcatches | outcome hcatches => cases hcatches
  | bind _ _ ihp ihf => exact ihp.bind ihf

end Procedure

/-! ### Bodies of steps -/

open Procedure

namespace Advance

theorem meets_recordProgress_failing (participant : Participant) (total : UInt32) (ctx : Context) :
    (recordProgress participant total).Meets .failing (fun r _ g =>
      match r with
      | .ok _ => g.2 = []
      | .error e => ∃ c, (c.method = .countExecutions ∨ c.method = .saveParticipant) ∧ g.2 = [(c, e)])
      ctx ((), []) := by
  refine meets_bind.2 (meets_ask_failing.2 fun counted => ?_)
  cases counted with
  | error e => exact ⟨_, .inl rfl, rfl⟩
  | ok completed =>
    refine meets_bind.2 (meets_ask_failing.2 fun saved => ?_)
    cases saved with
    | error e => exact ⟨_, .inr rfl, rfl⟩
    | ok => rfl

theorem meets_release_failing (x : Execution) {c : Call} (e : CompletionError)
    (hc : c.method = .countExecutions ∨ c.method = .saveParticipant) (ctx : Context) :
    (release x e).Meets .failing (fun r _ g =>
      match r with
      | .ok e' => Surfaces g.2 e'
      | .error _ => False) ctx ((), [(c, e)]) := by
  refine meets_bind.2 (meets_query_failing.2 fun saved => ?_)
  cases saved with
  | ok => exact .plain c e
  | error e' => exact .notReleased c e x e' hc

theorem surfaces_update : update.SurfacesFailures := by
  apply SurfacesFailures.bind surfaces_get
  intro ctx
  apply SurfacesFailures.bind (surfaces_require _ _)
  intro x
  apply SurfacesFailures.bind (surfaces_require _ _)
  intro participant
  apply SurfacesFailures.bind (surfaces_require _ _)
  intro mission
  apply SurfacesFailures.andThen (surfaces_keep _ _)
  apply SurfacesFailures.andThen (surfaces_keep _ _)
  apply SurfacesFailures.andThen (surfaces_keep _ _)
  apply SurfacesFailures.bind (surfaces_ask _)
  intro claimed
  apply SurfacesFailures.bind (surfaces_check _ _)
  intro _ ctx
  refine meets_bind.2 (meets_outcome.2 ((meets_recordProgress_failing participant _ ctx).mono fun r ctx g hr => ?_))
  obtain ⟨⟨⟩, failed⟩ := g
  cases r with
  | error e =>
    obtain ⟨c, hc, rfl⟩ := hr
    refine meets_bind.2 ((meets_release_failing x e hc ctx).mono fun r ctx g hr => ?_)
    cases r with
    | error => exact hr.elim
    | ok e' => exact hr
  | ok updated =>
    obtain rfl : failed = [] := hr
    refine SurfacesFailures.bind (surfaces_keep _ _) (fun _ => ?_) ctx
    apply SurfacesFailures.andThen (surfaces_keep _ _)
    apply SurfacesFailures.andThen (surfaces_keep _ _)
    apply SurfacesFailures.andThen (surfaces_modify _)
    exact surfaces_pure _

end Advance

namespace Sharing

theorem surfaces_publish : publish.SurfacesFailures := by
  have hdraft : Confined id false methods (Context.MarkedOnly []) draft := confined_draft
  apply SurfacesFailures.bind surfaces_get
  intro ctx
  split
  · exact surfaces_pure _
  · apply SurfacesFailures.bind (surfaces_require _ _)
    intro target
    apply SurfacesFailures.bind hdraft.surfaces
    intro entry
    apply SurfacesFailures.bind (surfaces_ask _)
    intro feed ctx
    refine meets_bind.2 (meets_query_failing.2 fun marked => ?_)
    cases marked with
    | ok => exact rfl
    | error e =>
      refine meets_bind.2 (meets_query_failing.2 fun deleted => ?_)
      cases deleted with
      | ok => exact .plain _ e
      | error e' => exact .notWithdrawn target e feed.id e'

end Sharing

/-! ### Results -/

def Rejects (step : String) (e : CompletionError) : Prop :=
  step = Loading.step.name ∧ e.isValidation = true ∨
    (step = Advance.step.name ∨ step = Closing.step.name) ∧
      ((∃ entity id, e = .alreadyCompleted entity id) ∨ ∃ x cause release, e = .executionNotReleased x cause release)

structure FailsWith (step doing : String) (e : CompletionError) (result : CompletionResult) : Prop where
  message : result.message = doing ++ ": " ++ e.message
  cause : result.cause = some e
  validation : result.failureKind = some .validation ↔ Rejects step e
  transient : result.failureKind = some .transient ↔ ¬ Rejects step e

theorem losesClaim_eq_true_iff (e : CompletionError) : losesClaim e = true ↔
    (∃ entity id, e = .alreadyCompleted entity id) ∨ ∃ x cause release, e = .executionNotReleased x cause release := by
  cases e <;> simp [losesClaim]

theorem failsWith_of_rejects {step doing : String} {rejects : CompletionError → Bool} {e : CompletionError}
    (h : rejects e = true ↔ Rejects step e) :
    FailsWith step doing e (if rejects e then .rejected (doing ++ ": " ++ e.message) e
      else .transient (doing ++ ": " ++ e.message) (some e)) := by
  split
  · next hrejects =>
    have hstep : Rejects step e := h.1 hrejects
    exact ⟨rfl, rfl, iff_of_true rfl hstep, iff_of_false nofun fun hnot => hnot hstep⟩
  · next hpasses =>
    have hstep : ¬ Rejects step e := fun hstep => hpasses (h.2 hstep)
    exact ⟨rfl, rfl, iff_of_false nofun hstep, iff_of_true rfl hstep⟩

/-- How a step's result accounts for the calls that failed: none did if it succeeded. -/
def Accounts (step doing : String) (failed : List (Call × CompletionError)) (result : CompletionResult) : Prop :=
  result.isSuccess = true ∧ failed = [] ∨ ∃ e, Surfaces failed e ∧ FailsWith step doing e result

theorem obeys_settle_surfaces {step doing : String} {rejects : CompletionError → Bool} {body : Procedure Success}
    (hrejects : ∀ e, rejects e = true ↔ Rejects step e) (hbody : body.SurfacesFailures) (ctx : Context) :
    ((settle doing rejects body).run ctx).Obeys .failing (fun r g => Accounts step doing g.2 r.1) ((), []) := by
  refine obeys_settle.2 ((hbody ctx).mono fun r ctx g hr => ?_)
  cases r with
  | ok success => exact .inl ⟨rfl, hr⟩
  | error e => exact .inr ⟨e, hr, failsWith_of_rejects (hrejects e)⟩

namespace Operation

/-- The steps, each with what it says that it failed to do. -/
def doings : List (CompletionStep × String) :=
  [(Loading.step, "failed to load mission data"), (UserReward.step, "failed to grant user experience"),
    (Advance.step, "failed to update participant progress"), (Closing.step, "failed to complete mission instance"),
    (GuildReward.step, "failed to grant guild experience"), (Sharing.step, "failed to share mission to feed")]

theorem obeys_execute_accounts {row : CompletionStep × String} (hrow : row ∈ doings) (ctx : Context) :
    (row.1.execute.run ctx).Obeys .failing (fun r g => Accounts row.1.name row.2 g.2 r.1) ((), []) := by
  -- the rule of each step by its name, the two rules of claiming steps being one
  have hnames : ∀ step : CompletionStep, step.name ≠ Loading.step.name → step.name ≠ Advance.step.name →
      step.name ≠ Closing.step.name → ∀ e, neverRejects e = true ↔ Rejects step.name e := by
    intro step hloading hadvance hclosing e
    exact iff_of_false nofun fun h => h.elim (fun h => hloading h.1) fun h => h.1.elim hadvance hclosing
  have hclaims : ∀ step : CompletionStep, step.name ≠ Loading.step.name →
      step.name = Advance.step.name ∨ step.name = Closing.step.name →
      ∀ e, losesClaim e = true ↔ Rejects step.name e := by
    intro step hloading hclaims e
    rw [losesClaim_eq_true_iff]
    exact ⟨fun h => .inr ⟨hclaims, h⟩, fun h => h.elim (fun h => absurd h.1 hloading) fun h => h.2⟩
  rw [doings] at hrow
  simp only [List.mem_cons, List.not_mem_nil, or_false] at hrow
  rcases hrow with rfl | rfl | rfl | rfl | rfl | rfl
  · refine obeys_settle_surfaces (fun e => ⟨fun h => .inl ⟨rfl, h⟩, fun h => ?_⟩) Loading.confined_load.surfaces ctx
    rcases h with h | ⟨hname | hname, -⟩
    · exact h.2
    · exact absurd hname (by decide)
    · exact absurd hname (by decide)
  · exact obeys_settle_surfaces (hnames UserReward.step (by decide) (by decide) (by decide))
      UserReward.confined_grant.surfaces ctx
  · exact obeys_settle_surfaces (hclaims Advance.step (by decide) (.inl rfl)) Advance.surfaces_update ctx
  · exact obeys_settle_surfaces (hclaims Closing.step (by decide) (.inr rfl)) Closing.confined_close.surfaces ctx
  · exact obeys_settle_surfaces (hnames GuildReward.step (by decide) (by decide) (by decide))
      GuildReward.confined_grant.surfaces ctx
  · exact obeys_settle_surfaces (hnames Sharing.step (by decide) (by decide) (by decide)) Sharing.surfaces_publish ctx

theorem run_execute_accounts {S : Type} {row : CompletionStep × String} (hrow : row ∈ doings) (server : Server S)
    (ctx : Context) (w : S) : ∃ result ctx' w' failed,
      ((row.1.execute.run ctx).serve server).run w = ((result, ctx'), w') ∧
      ((row.1.execute.run ctx).serve (server.noting .failures)).run (w, []) = ((result, ctx'), (w', failed)) ∧
      Accounts row.1.name row.2 failed result := by
  have hgoverns : (Protocol.calling Context fun _ => True).Governs server (fun _ => ()) fun _ => True :=
    fun _ _ _ _ => ⟨trivial, trivial⟩
  have haccounts := (obeys_execute_accounts hrow ctx).serve (hgoverns.noting .failures) (s := (w, [])) trivial
  obtain ⟨⟨⟨result, ctx'⟩, w', failed⟩, hrun⟩ :
      ∃ r, ((row.1.execute.run ctx).serve (server.noting .failures)).run (w, []) = r := ⟨_, rfl⟩
  rw [hrun] at haccounts
  exact ⟨result, ctx', w', failed, Program.serve_of_noting hrun, hrun, haccounts⟩

end Operation

/-! ### Attempts -/

namespace Run

variable {σ ε π : Type}

/-- Attempts that settle on a result of a kind, and on a passing failure only once every retry is used up. -/
def SettlesWith (R : StepResult ε π → Prop) (retries : Nat) : Except Interruption (Tries ε π) → Prop
  | .ok tries => R tries.result ∧ (tries.result.isRetryable = true → tries.attempts = retries + 1)
  | .error _ => attemptCounterMax ≤ retries

theorem obeys_attempt_settlesWith {execute : StateT σ (Program σ) (StepResult ε π)} {R : StepResult ε π → Prop}
    (hresults : ∀ s, (execute.run s).Obeys (.calling σ fun _ => True) (fun r _ => R r.1) ()) (retries made : Nat)
    (s : σ) :
    ((attempt execute retries made).run.run s).Obeys (.calling σ fun _ => True)
      (fun r _ => SettlesWith R (made + retries) r.1) () := by
  -- on the retries that are left, with the state after an attempt
  induction retries generalizing made s with
  | zero =>
    by_cases hmade : made < attemptCounterMax
    · rw [run_attempt _ _ hmade, Program.obeys_bind]
      refine (hresults s).mono fun r g hr => ?_
      cases r.1.isRetryable <;> exact ⟨hr, fun _ => rfl⟩
    · rw [run_attempt_full _ _ hmade]
      exact Nat.le_of_not_lt hmade
  | succ retries ih =>
    by_cases hmade : made < attemptCounterMax
    · rw [run_attempt _ _ hmade, Program.obeys_bind]
      refine (hresults s).mono fun r g hr => ?_
      cases hretry : r.1.isRetryable with
      | false => exact ⟨hr, fun h => absurd h (by rw [hretry]; exact Bool.false_ne_true)⟩
      | true =>
        refine (ih (made + 1) r.2).mono fun r' g' hr' => ?_
        rw [Nat.add_assoc made 1 retries, Nat.add_comm 1 retries] at hr'
        exact hr'
    · rw [run_attempt_full _ _ hmade]
      exact Nat.le_add_right_of_le (Nat.le_of_not_lt hmade)

end Run

namespace Operation

/-- Whatever the collaborators answer, and in whatever context: a step in which calls failed fails with the error that
surfaces from them, worded for the step. It rejects the request for that error if the error is one that does so at this
step; any other failure passes, and the attempts settle on it only once the retries under the policy are used up. -/
theorem errors_surface {S : Type} (o : Operation) (server : Server S) (ctx : Context) (w : S) :
    o.saga.steps = doings.map Prod.fst ∧ ∀ row ∈ doings,
      (∃ result ctx' w' failed,
        ((row.1.execute.run ctx).serve server).run w = ((result, ctx'), w') ∧
        ((row.1.execute.run ctx).serve (server.noting .failures)).run (w, []) = ((result, ctx'), (w', failed)) ∧
        Accounts row.1.name row.2 failed result) ∧
      Run.SettlesWith (fun result => ∃ failed, Accounts row.1.name row.2 failed result)
        (o.saga.policyFor row.1).maxRetries.toNat
        ((((Run.attempt row.1.execute (o.saga.policyFor row.1).maxRetries.toNat 0).run.run ctx).serve server).run
          w).1.1 := by
  refine ⟨o.steps_saga, fun row hrow => ⟨run_execute_accounts hrow server ctx w, ?_⟩⟩
  have hresults (ctx : Context) : (row.1.execute.run ctx).Obeys (.calling Context fun _ => True)
      (fun r _ => ∃ failed, Accounts row.1.name row.2 failed r.1) () :=
    ((obeys_execute_accounts hrow ctx).mono fun r g hr => ⟨g.2, hr⟩).of_noting
  have htried := (Run.obeys_attempt_settlesWith (R := fun result => ∃ failed, Accounts row.1.name row.2 failed result)
    hresults (o.saga.policyFor row.1).maxRetries.toNat 0 ctx).serve_calling server w
  rw [Nat.zero_add] at htried
  exact htried

open Fixture in
/-- A count fails, and then the save that is to give the execution back. -/
theorem errors_surface_stuck :
    ∃ count save result,
      (((Advance.step.execute.run loaded).serve World.server).run
        ((plain ++ [Disturbance.failCounts 1, .failExecutionSaves 1]).foldl World.disturb {})).1.1 = result ∧
      FailsWith "update_participant_progress" "failed to update participant progress"
        (.executionNotReleased 500 count save) result ∧ result.isRejected = true := by
  let world : World := (plain ++ [Disturbance.failCounts 1, .failExecutionSaves 1]).foldl World.disturb {}
  obtain ⟨-, hrows⟩ := errors_surface ⟨.standard, rfl⟩ World.server loaded world
  obtain ⟨⟨result, ctx', w', failed, hrun, hnoted, haccounts⟩, -⟩ :=
    hrows (Advance.step, "failed to update participant progress") (by simp [doings])
  have hfailed : failed = [(.countExecutions 10 .completed, .collaborator "executions" "read timeout"),
      (.saveExecution execution, .collaborator "executions" "connection reset")] :=
    (congrArg (·.2.2) hnoted).symm.trans rfl
  have hresult : (((Advance.step.execute.run loaded).serve World.server).run world).1.1 = result :=
    congrArg (·.1.1) hrun
  rw [hfailed] at haccounts
  obtain ⟨-, hnone⟩ | ⟨e, hsurfaces, hfails⟩ := haccounts
  · cases hnone
  · obtain ⟨x, hx, he⟩ : ∃ x : Execution, { x with status := .inProgress } = execution ∧
        e = .executionNotReleased x.id (.collaborator "executions" "read timeout")
          (.collaborator "executions" "connection reset") := by
      generalize hsaved : Call.saveExecution execution = saved at hsurfaces
      cases hsurfaces with
      | notReleased c e x release recording => exact ⟨x, (Call.saveExecution.inj hsaved).symm, rfl⟩
    have hid : x.id = 500 := congrArg Execution.id hx
    rw [he, hid] at hfails
    exact ⟨_, _, result, hresult, hfails, by rw [← hresult]; rfl⟩

end Operation

end Missions
