import Missions.Proofs.Completion.Outcome
import Missions.Proofs.Saga.Passage
import Missions.Proofs.Saga.Transport

/-! A completion as a tree of actions: each step's execution, and each undoing, is one act on the world. Spelled out
call by call, the plan of an operation is the completion itself. -/

namespace Missions

inductive Phase where
  | loading
  | userReward
  | advance
  | closing
  | guildReward
  | sharing
  deriving DecidableEq, Repr

namespace Phase

def step : Phase → CompletionStep
  | loading => Loading.step
  | userReward => UserReward.step
  | advance => Advance.step
  | closing => Closing.step
  | guildReward => GuildReward.step
  | sharing => Sharing.step

def all : List Phase := [loading, userReward, advance, closing, guildReward, sharing]

end Phase

structure StepAction where
  phase : Phase
  undoes : Bool
  deriving DecidableEq, Repr

def StepAction.body (action : StepAction) : StateT Context (Program Context) CompletionResult :=
  if action.undoes then action.phase.step.compensate else action.phase.step.execute

/-- A tree of actions, each begun in a context. A plan goes on from the result of an action and the context that it
left. -/
inductive Plan (α : Type) where
  | done (result : α)
  | act (here : Context) (action : StepAction) (next : CompletionResult × Context → Plan α)

namespace Plan

variable {α β γ : Type}

protected def bind : Plan α → (α → Plan β) → Plan β
  | done a, f => f a
  | act here action next, f => act here action fun r => (next r).bind f

instance : Monad Plan where
  pure := done
  bind := Plan.bind

theorem act_bind (here : Context) (action : StepAction) (next : CompletionResult × Context → Plan α) (f : α → Plan β) :
    act here action next >>= f = act here action fun r => next r >>= f := rfl

theorem bind_done (p : Plan α) : p >>= done = p := by
  induction p with
  | done => rfl
  | act here action next ih => simp [act_bind, ih]

protected theorem bind_assoc (p : Plan α) (f : α → Plan β) (g : β → Plan γ) :
    p >>= f >>= g = p >>= fun a => f a >>= g := by
  induction p with
  | done => rfl
  | act here action next ih => simp [act_bind, ih]

instance : LawfulMonad Plan :=
  LawfulMonad.mk' Plan bind_done (fun _ _ => rfl) Plan.bind_assoc

def program : Plan α → Program Context α
  | done a => .done a
  | act here action next => action.body.run here >>= fun r => (next r).program

theorem program_bind (p : Plan α) (f : α → Plan β) : (p >>= f).program = p.program >>= fun a => (f a).program := by
  induction p with
  | done => rfl
  | act here action next ih =>
    rw [act_bind, program, program, bind_assoc]
    exact congrArg _ (funext ih)

def reading : Reading Plan (Program Context) Context Context where
  view := id
  read p := p.program
  read_pure _ _ := rfl
  read_bind x f f' hf := by
    rw [program_bind]
    exact congrArg _ (funext fun r => hf r.1 r.2)

end Plan

/-- A step of a completion as one action, and its undoing as another. -/
def Phase.planned (phase : Phase) : Step Context Plan CompletionError Receipt where
  name := phase.step.name
  execute := fun ctx => .act ctx ⟨phase, false⟩ .done
  compensate := fun ctx => .act ctx ⟨phase, true⟩ .done
  undoing := phase.step.undoing
  mandatory := phase.step.mandatory
  applies := phase.step.applies
  retry := phase.step.retry

theorem Phase.step_reads (phase : Phase) : phase.planned.Reads Plan.reading phase.step where
  name := rfl
  undoing := rfl
  mandatory := rfl
  applies _ := rfl
  execute _ := Program.bind_done _
  compensate _ := Program.bind_done _

namespace Operation

def planned (o : Operation) : Saga Context Plan CompletionError Receipt where
  steps := Phase.all.map Phase.planned
  overrides := o.saga.overrides
  steps_ne_nil := List.cons_ne_nil _ _

def plan (o : Operation) (request : Request) :
    Plan (Except Interruption (Except CompletionError Completion × AuditLog)) := do
  let (run, ctx) ← o.planned.run.run.run (.start (o.effective request))
  match run with
  | .error i => pure (.error i)
  | .ok run =>
    match run.result with
    | .ok report => pure (.ok (Completion.ofRun ctx report, run.audit))
    | .error aborted => pure (.ok (.error (.ofAborted aborted), run.audit))

theorem program_plan (o : Operation) (request : Request) : (o.plan request).program = o.complete request := by
  have hsteps : List.Forall₂ (fun step step' => step.Reads Plan.reading step' ∧
      o.planned.policyFor step = o.saga.policyFor step') o.planned.steps o.saga.steps := by
    have hall : o.saga.steps = Phase.all.map Phase.step := o.steps_saga
    rw [hall, planned, List.forall₂_map_left_iff, List.forall₂_map_right_iff, List.forall₂_same]
    exact fun phase _ => ⟨phase.step_reads, rfl⟩
  rw [plan, complete, Plan.program_bind]
  refine congr (congrArg _ (Run.read_visit hsteps _)) (funext fun r => ?_)
  obtain ⟨i | ⟨aborted | report, audit⟩, ctx⟩ := r <;> rfl

end Operation

/-! ### Where a run stands -/

/-- Whether an action has left the records that it was to bring back: undoing has failed, or an attempt has kept its
claim. -/
def StepAction.lapses : StepAction → CompletionResult → Bool
  | ⟨.advance, true⟩, result => !result.isSuccess
  | ⟨.advance, false⟩, .rejected _ e => e.leftClaimed.isSome
  | _, _ => false

theorem StepAction.lapses_of_isRejected_eq_false {phase : Phase} {result : CompletionResult}
    (h : result.isRejected = false) : StepAction.lapses ⟨phase, false⟩ result = false := by
  cases result with
  | rejected => cases h
  | success | transient => cases phase <;> rfl

theorem StepAction.leftClaimed_of_lapses {phase : Phase} {result : CompletionResult}
    (h : StepAction.lapses ⟨phase, false⟩ result = true) :
    (result.cause.bind CompletionError.leftClaimed).isSome = true := by
  cases result with
  | rejected message e =>
    cases phase with
    | advance => exact h
    | loading | userReward | closing | guildReward | sharing => cases h
  | success | transient => cases phase <;> cases h

/-- The context that a run has come to, and whether it has left a record that it was to bring back. -/
structure RunState where
  ctx : Context
  lapsed : Bool

def RunState.after (g : RunState) (action : StepAction) (r : CompletionResult × Context) : RunState where
  ctx := r.2
  lapsed := g.lapsed || action.lapses r.1

namespace Plan

variable {α β : Type}

/-- Each action begins where the last one has left the run, for the same request, and none is that of a pinned
instance. -/
def Obeys (Q : α → RunState → Prop) : Plan α → RunState → Prop
  | done a, g => Q a g
  | act here action next, g => here = g.ctx ∧ action.phase ≠ .closing ∧
      ∀ r, r.2.request = here.request → (next r).Obeys Q (g.after action r)

theorem obeys_act {Q : α → RunState → Prop} {here : Context} {action : StepAction}
    {next : CompletionResult × Context → Plan α} {g : RunState} : (act here action next).Obeys Q g ↔
      here = g.ctx ∧ action.phase ≠ .closing ∧
        ∀ r, r.2.request = here.request → (next r).Obeys Q (g.after action r) := Iff.rfl

theorem obeys_bind {Q : β → RunState → Prop} {p : Plan α} {f : α → Plan β} {g : RunState} :
    (p >>= f).Obeys Q g ↔ p.Obeys (fun a g => (f a).Obeys Q g) g := by
  induction p generalizing g with
  | done a => rfl
  | act here action next ih =>
    rw [act_bind, obeys_act, obeys_act]
    exact and_congr_right' (and_congr_right' (forall₂_congr fun r _ => ih r))

theorem Obeys.mono {Q Q' : α → RunState → Prop} {p : Plan α} {g : RunState} (h : p.Obeys Q g)
    (hQ : ∀ a g, Q a g → Q' a g) : p.Obeys Q' g := by
  induction p generalizing g with
  | done a => exact hQ a g h
  | act here action next ih => exact ⟨h.1, h.2.1, fun r hr => ih r (h.2.2 r hr)⟩

def logic : Logic Plan RunState where
  Obeys x Q g := x.Obeys Q g
  ret h := h
  bind h := obeys_bind.2 h
  mono h hQ := h.mono hQ

end Plan

/-- An aborted run names the participant's step among those that could not be undone, or was stopped by an execution
that stays claimed. -/
def Aborted.Tells (a : Aborted CompletionError) : Prop :=
  Advance.step.name ∈ a.undoFailures.map (·.step) ∨ (a.cause.bind CompletionError.leftClaimed).isSome = true

theorem Aborted.Tells.afterUndo {a : Aborted CompletionError} (h : a.Tells) (step description : String)
    (undo : CompletionResult) : (a.afterUndo step description undo).Tells := by
  rw [Tells, cause_afterUndo, undoFailures_afterUndo]
  refine h.imp_left fun hmem => ?_
  split
  · exact hmem
  · rw [List.map_append]
    exact List.mem_append_left _ hmem

theorem Aborted.tells_afterUndo {a : Aborted CompletionError} {phase : Phase} {undo : CompletionResult}
    (h : StepAction.lapses ⟨phase, true⟩ undo = true) :
    (a.afterUndo phase.step.name phase.step.undoing undo).Tells := by
  cases phase with
  | advance =>
    have hfailed : undo.isSuccess = false := Bool.not_eq_true' _ ▸ h
    rw [Tells, undoFailures_afterUndo, hfailed, if_neg Bool.false_ne_true, List.map_append]
    exact .inl (List.mem_append_right _ List.mem_cons_self)
  | loading | userReward | closing | guildReward | sharing => cases h

/-- The error names the participant's step among those that could not be undone, or an execution that stays claimed. -/
def CompletionError.TellsLapse (e : CompletionError) : Prop :=
  Advance.step.name ∈ e.stepsNotUndone ∨ (e.stepCause.bind leftClaimed).isSome = true

theorem Aborted.Tells.ofAborted {a : Aborted CompletionError} (h : a.Tells) :
    (CompletionError.ofAborted a).TellsLapse := by
  rwa [CompletionError.TellsLapse, CompletionError.stepsNotUndone, CompletionError.undoFailures_ofAborted,
    CompletionError.stepCause_ofAborted]

namespace RunState

def Clear (ctx : Context) (g : RunState) : Prop := ctx = g.ctx ∧ ctx.request.pinned = false ∧ g.lapsed = false

def Tells (run : Run CompletionError) (ctx : Context) (g : RunState) : Prop :=
  ctx = g.ctx ∧ ctx.request.pinned = false ∧ (g.lapsed = true → ∃ a, run.result = .error a ∧ a.Tells)

variable {ctx : Context} {g : RunState} {run : Run CompletionError}

theorem Tells.skipping (h : Tells run ctx g) (name : String) : Tells (run.skipping name) ctx g := by
  refine ⟨h.1, h.2.1, fun hlapsed => ?_⟩
  obtain ⟨a, hresult, ha⟩ := h.2.2 hlapsed
  exact ⟨a, by rw [Run.skipping, hresult]; rfl, ha⟩

theorem Tells.passingOver (h : Tells run ctx g) (name : String) (tries : Tries CompletionError Receipt) :
    Tells (run.passingOver name tries) ctx g := by
  refine ⟨h.1, h.2.1, fun hlapsed => ?_⟩
  obtain ⟨a, hresult, ha⟩ := h.2.2 hlapsed
  exact ⟨a, by rw [Run.passingOver, hresult]; rfl, ha⟩

/-- A regular run after the attempts of a step, which had left nothing before. -/
def Tried (phase : Phase) (tries : Tries CompletionError Receipt) (ctx : Context) (g : RunState) : Prop :=
  ctx = g.ctx ∧ ctx.request.pinned = false ∧ g.lapsed = StepAction.lapses ⟨phase, false⟩ tries.result

theorem Tried.clear {phase : Phase} {tries : Tries CompletionError Receipt} (h : Tried phase tries ctx g)
    (hpasses : tries.result.isRejected = false) : Clear ctx g :=
  ⟨h.1, h.2.1, h.2.2.trans (StepAction.lapses_of_isRejected_eq_false hpasses)⟩

theorem Clear.attempt {phase : Phase} (hphase : phase ≠ .closing) (h : Clear ctx g) (retries : Nat) :
    Plan.logic.Obeys ((Run.attempt phase.planned.execute retries 0).run.run ctx)
      (Run.Attempted (Tried phase) retries) g := by
  have hexecute (made : Nat) (ctx : Context) (g : RunState) (hclear : Clear ctx g) :
      Plan.logic.Obeys (phase.planned.execute.run ctx)
        (fun r g => (r.1.isRetryable → Clear r.2 g) ∧ Tried phase ⟨made + 1, r.1⟩ r.2 g) g := by
    obtain ⟨rfl, hregular, hclear⟩ := hclear
    refine ⟨rfl, hphase, fun r hr => ?_⟩
    have htried : Tried phase ⟨made + 1, r.1⟩ r.2 (g.after ⟨phase, false⟩ r) := by
      refine ⟨rfl, hr ▸ hregular, ?_⟩
      rw [after, hclear, Bool.false_or]
    exact ⟨fun hretry => htried.clear (StepResult.isRejected_of_isRetryable hretry), htried⟩
  exact Run.attempted_all (J := fun _ => Clear) hexecute retries h

theorem Tells.closing {phase : Phase} (hphase : phase ≠ .closing) (h : Tells run ctx g)
    (tries : Tries CompletionError Receipt) :
    ((Run.closing phase.planned tries run).run ctx).Obeys (fun r g => Tells r.1 r.2 g) g := by
  obtain ⟨rfl, hregular, htells⟩ := h
  obtain ⟨aborted | report, audit⟩ := run
  · rw [Run.closing, StateT.run_bind]
    refine Plan.obeys_bind.2 ⟨rfl, hphase, fun r hr => ⟨rfl, hr ▸ hregular, fun hlapsed => ⟨_, rfl, ?_⟩⟩⟩
    rcases Bool.or_eq_true_iff.1 hlapsed with hbefore | hundo
    · obtain ⟨a, hresult, ha⟩ := htells hbefore
      obtain rfl := Except.error.inj hresult
      exact ha.afterUndo _ _ _
    · exact Aborted.tells_afterUndo hundo
  · refine ⟨rfl, hregular, fun hlapsed => ?_⟩
    obtain ⟨a, hresult, -⟩ := htells hlapsed
    cases hresult

theorem passes_tells (policy : Step Context Plan CompletionError Receipt → RetryPolicy) (phases : List Phase) :
    Run.Passes Plan.logic policy (phases.map Phase.planned) Clear Tells := by
  induction phases with
  | nil =>
    refine .nil fun ctx g ⟨hctx, hregular, hclear⟩ => ⟨hctx, hregular, fun hlapsed => ?_⟩
    rw [hclear] at hlapsed
    cases hlapsed
  | cons phase rest ih =>
    intro ctx₀ g₀ hclear₀
    -- whether the step applies is told by the context in which the visit begins
    have hbegin : Run.Passes Plan.logic policy (phase.planned :: rest.map Phase.planned)
        (fun ctx g => ctx = ctx₀ ∧ Clear ctx g) Tells := by
      cases happlies : phase.planned.applies ctx₀ with
      | false =>
        refine .skip (fun ctx g h => ?_) (ih.mono (fun ctx g h => h.2) fun run ctx g h => h.skipping _)
        rw [h.1, happlies]
      | true =>
        have hphase : phase ≠ .closing := by
          rintro rfl
          cases hclear₀.2.1.symm.trans happlies
        refine .apply (T := Tried phase) (V := fun _ => Tells) (fun ctx g h => ?_) (fun ctx g h => h.2.attempt hphase _)
          (fun tries hok => ?_) (fun tries run ctx g _ h => h.closing hphase tries) (fun tries ctx g _ _ h => ?_)
          fun tries _ hlasts => ?_
        · rw [h.1, happlies]
        · exact ih.mono (fun ctx g h => h.clear (StepResult.isRejected_of_isSuccess hok)) fun _ _ _ h => h
        · refine ⟨h.1, h.2.1, fun hlapsed => ⟨_, rfl, .inr ?_⟩⟩
          exact StepAction.leftClaimed_of_lapses (h.2.2.symm.trans hlapsed)
        · exact ih.mono (fun ctx g h => h.clear (Bool.or_eq_false_iff.1 hlasts).2) fun run ctx g h => h.passingOver _ _
    exact hbegin ctx₀ g₀ ⟨rfl, hclear₀⟩

/-- A run that has come to its end and has left a record has failed, and tells. -/
def Final (r : Except Interruption (Except CompletionError Completion × AuditLog)) (g : RunState) : Prop :=
  ∀ result audit, r = .ok (result, audit) → g.lapsed = true → ∃ e, result = .error e ∧ e.TellsLapse

theorem obeys_plan (o : Operation) {request : Request} (hregular : request.pinned = false) :
    (o.plan request).Obeys Final ⟨.start (o.effective request), false⟩ := by
  refine Plan.obeys_bind.2 (Plan.Obeys.mono (passes_tells _ Phase.all _ _ ⟨rfl, hregular, rfl⟩) fun r g hr => ?_)
  obtain ⟨i | ⟨aborted | report, audit⟩, ctx⟩ := r
  · rintro result audit ⟨⟩
  · rintro result audit ⟨⟩ hlapsed
    obtain ⟨a, hresult, ha⟩ := hr.2.2 hlapsed
    obtain rfl := Except.error.inj hresult
    exact ⟨_, rfl, ha.ofAborted⟩
  · rintro result audit ⟨⟩ hlapsed
    obtain ⟨a, hresult, -⟩ := hr.2.2 hlapsed
    cases hresult

end RunState

end Missions
