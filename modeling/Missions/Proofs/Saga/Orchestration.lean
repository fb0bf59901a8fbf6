import Missions.Proofs.Saga.Unfolding

/-! The calls that a run makes, compared with an algorithm that keeps the executed steps on a stack. Steps stand at
positions, so that steps of one name stay apart. -/

namespace Missions

variable {σ ε π : Type}

/-- A call that a run makes of the step at a position. -/
inductive StepCall where
  | execute (position : Nat)
  | compensate (position : Nat)
  deriving DecidableEq, Repr

/-- A state with the calls that led to it, the earliest first. -/
structure Journal (σ : Type) where
  state : σ
  calls : List StepCall := []

namespace Journal

def call (c : StepCall) (act : StateT σ Id (StepResult ε π)) (j : Journal σ) : StepResult ε π × Journal σ :=
  ((act.run j.state).1, ⟨(act.run j.state).2, j.calls ++ [c]⟩)

end Journal

def Step.journaled (step : Step σ Id ε π) (position : Nat) : Step (Journal σ) Id ε π where
  name := step.name
  execute := Journal.call (.execute position) step.execute
  compensate := Journal.call (.compensate position) step.compensate
  undoing := step.undoing
  mandatory := step.mandatory
  applies := fun j => step.applies j.state
  retry := step.retry

def Step.journaledFrom (steps : List (Step σ Id ε π)) (position : Nat) : List (Step (Journal σ) Id ε π) :=
  (steps.zipIdx position).map fun (step, position) => step.journaled position

def Saga.journaled (saga : Saga σ Id ε π) : Saga (Journal σ) Id ε π where
  steps := Step.journaledFrom saga.steps 0
  overrides := saga.overrides
  steps_ne_nil := by simp [Step.journaledFrom, saga.steps_ne_nil]

/-! ### The algorithm -/

namespace Orchestration

/-- Executes a step up to the first result that is no passing failure, or until no retry is left. -/
def settle (position : Nat) (step : Step σ Id ε π) (retries : Nat) (j : Journal σ) : StepResult ε π × Journal σ :=
  let (result, j) := j.call (.execute position) step.execute
  match result, retries with
  | .transient .., retries + 1 => settle position step retries j
  | result, _ => (result, j)

/-- Compensates the steps of the stack from the top, whatever each of them reports. -/
def unwind : List (Nat × Step σ Id ε π) → Journal σ → Journal σ
  | [], j => j
  | (position, step) :: stack, j => unwind stack (j.call (.compensate position) step.compensate).2

/-- Visits the steps from a position on, with the executed ones on a stack. Tells whether the run came to its end. -/
def visit (policy : Step σ Id ε π → RetryPolicy) (stack : List (Nat × Step σ Id ε π)) (position : Nat) :
    List (Step σ Id ε π) → Journal σ → Bool × Journal σ
  | [], j => (true, j)
  | step :: rest, j =>
    if step.applies j.state then
      match settle position step (policy step).maxRetries.toNat j with
      | (.success .., j) => visit policy ((position, step) :: stack) (position + 1) rest j
      | (.rejected .., j) => (false, unwind stack j)
      | (.transient .., j) =>
        if step.mandatory then (false, unwind stack j) else visit policy stack (position + 1) rest j
    else visit policy stack (position + 1) rest j

/-! ### Runs follow the algorithm -/

theorem run_journaled_execute (step : Step σ Id ε π) (position : Nat) (j : Journal σ) :
    (step.journaled position).execute.run j = pure (j.call (.execute position) step.execute) := rfl

theorem run_execute (step : Step σ Id ε π) (c : StepCall) (j : Journal σ) :
    step.execute.run j.state = pure ((j.call c step.execute).1, (j.call c step.execute).2.state) := rfl

/-- With retries that can be counted, attempts settle as the algorithm does, with the journal and without it. -/
theorem run_attempt_eq (position : Nat) (step : Step σ Id ε π) (retries : Nat) {made : Nat}
    (h : made + retries < attemptCounterMax) (j : Journal σ) :
    ∃ attempts,
      (Run.attempt (step.journaled position).execute retries made).run.run j =
        pure (.ok ⟨attempts, (settle position step retries j).1⟩, (settle position step retries j).2) ∧
      (Run.attempt step.execute retries made).run.run j.state =
        pure (.ok ⟨attempts, (settle position step retries j).1⟩, (settle position step retries j).2.state) := by
  have hmade : made < attemptCounterMax := by omega
  induction retries generalizing made j with
  | zero =>
    rw [Run.run_attempt _ _ hmade, Run.run_attempt _ _ hmade, run_journaled_execute, pure_bind,
      run_execute step (.execute position), pure_bind, settle]
    generalize j.call (.execute position) step.execute = r
    obtain ⟨result, j⟩ := r
    cases result <;> exact ⟨made + 1, rfl, rfl⟩
  | succ retries ih =>
    rw [Run.run_attempt _ _ hmade, Run.run_attempt _ _ hmade, run_journaled_execute, pure_bind,
      run_execute step (.execute position), pure_bind, settle]
    generalize j.call (.execute position) step.execute = r
    obtain ⟨result, j⟩ := r
    cases result with
    | success => exact ⟨made + 1, rfl, rfl⟩
    | rejected => exact ⟨made + 1, rfl, rfl⟩
    | transient => exact ih (by omega) j (by omega)

/-- A run with a journal, the same run without it, and the algorithm agree, up to the steps that wait on the stack:
they are left alone if the run comes to its end, and unwound if it does not. -/
def Agree (journaled : Id (Except Interruption (Run ε) × Journal σ)) (plain : Id (Except Interruption (Run ε) × σ))
    (stack : List (Nat × Step σ Id ε π)) (visited : Bool × Journal σ) : Prop :=
  ∃ run j, journaled = pure (.ok run, j) ∧ plain = pure (.ok run, j.state) ∧
    visited = if run.result.isOk then (true, j) else (false, unwind stack j)

section

variable {journaled : Id (Except Interruption (Run ε) × Journal σ)} {plain : Id (Except Interruption (Run ε) × σ)}
variable {stack : List (Nat × Step σ Id ε π)} {visited : Bool × Journal σ}

theorem Agree.pass (h : Agree journaled plain stack visited) (f : Run ε → Run ε)
    (hf : ∀ run, (f run).result.isOk = run.result.isOk) :
    Agree (journaled >>= Run.resume fun run j => pure (.ok (f run), j))
      (plain >>= Run.resume fun run s => pure (.ok (f run), s)) stack visited := by
  obtain ⟨run, j, rfl, rfl, rfl⟩ := h
  exact ⟨f run, j, rfl, rfl, by rw [hf]⟩

theorem Agree.close {position : Nat} {step : Step σ Id ε π} (tries : Tries ε π)
    (h : Agree journaled plain ((position, step) :: stack) visited) :
    Agree
      (journaled >>= Run.resume fun run j =>
        (Run.closing (step.journaled position) tries run).run j >>= fun r => pure (.ok r.1, r.2))
      (plain >>= Run.resume fun run s => (Run.closing step tries run).run s >>= fun r => pure (.ok r.1, r.2))
      stack visited := by
  obtain ⟨⟨result, audit⟩, j, rfl, rfl, rfl⟩ := h
  cases result with
  | ok report => exact ⟨_, j, rfl, rfl, rfl⟩
  | error aborted => exact ⟨_, (j.call (.compensate position) step.compensate).2, rfl, rfl, rfl⟩

end

theorem agree_visit {policy : Step σ Id ε π → RetryPolicy} {journaledPolicy : Step (Journal σ) Id ε π → RetryPolicy}
    (hpolicy : ∀ step position, journaledPolicy (step.journaled position) = policy step)
    (steps : List (Step σ Id ε π)) (hretries : ∀ step ∈ steps, (policy step).maxRetries.toNat < attemptCounterMax)
    (stack : List (Nat × Step σ Id ε π)) (position : Nat) (j : Journal σ) :
    Agree ((Run.visit journaledPolicy (Step.journaledFrom steps position)).run.run j)
      ((Run.visit policy steps).run.run j.state) stack (visit policy stack position steps j) := by
  -- the later steps run on a stack, from a position and with a journal that this step has changed
  induction steps generalizing stack position j with
  | nil => exact ⟨.ended, j, rfl, rfl, rfl⟩
  | cons step rest ih =>
    have ih := ih fun step hstep => hretries step (List.mem_cons_of_mem _ hstep)
    have hcons : Step.journaledFrom (step :: rest) position =
        step.journaled position :: Step.journaledFrom rest (position + 1) := rfl
    rw [hcons, visit]
    cases happlies : step.applies j.state with
    | false =>
      have hskip : (step.journaled position).applies j = false := happlies
      rw [if_neg (by simp), Run.run_visit_skip _ _ hskip, Run.run_visit_skip _ _ happlies]
      exact (ih stack (position + 1) j).pass _ (Run.isOk_skipping step.name)
    | true =>
      have hattempt : (step.journaled position).applies j = true := happlies
      have hcount : 0 + (policy step).maxRetries.toNat < attemptCounterMax := by
        simpa using hretries step List.mem_cons_self
      obtain ⟨attempts, htried, htried'⟩ := run_attempt_eq position step _ hcount j
      rw [if_pos rfl, Run.run_visit_attempt _ _ hattempt, Run.run_visit_attempt _ _ happlies, hpolicy, htried,
        htried', pure_bind, pure_bind]
      generalize settle position step (policy step).maxRetries.toNat j = settled
      obtain ⟨result, j⟩ := settled
      cases result with
      | success message payload => exact (ih ((position, step) :: stack) (position + 1) j).close _
      | rejected message cause =>
        have hstop : (step.mandatory || true) = true := Bool.or_true _
        exact ⟨.stopped step.name (π := π) ⟨attempts, .rejected message cause⟩, j, if_pos hstop, if_pos hstop, rfl⟩
      | transient message cause =>
        cases hmandatory : step.mandatory with
        | true =>
          have hjournaled : (step.journaled position).mandatory = true := hmandatory
          rw [hjournaled]
          exact ⟨.stopped step.name (π := π) ⟨attempts, .transient message cause⟩, j, rfl, rfl, rfl⟩
        | false =>
          have hjournaled : (step.journaled position).mandatory = false := hmandatory
          rw [hjournaled]
          exact (ih stack (position + 1) j).pass _ (Run.isOk_passingOver step.name ⟨attempts, .transient message cause⟩)

end Orchestration

/-- A run makes the calls of the algorithm, in its order, and ends in its state and its way. Writing the calls down
changes nothing else. -/
theorem Saga.run_calls (saga : Saga σ Id ε π)
    (hretries : ∀ step ∈ saga.steps, (saga.policyFor step).maxRetries.toNat < attemptCounterMax) (s : σ) :
    ∃ run : Run ε,
      saga.journaled.run.run.run ⟨s, []⟩ =
        pure (.ok run, (Orchestration.visit saga.policyFor [] 0 saga.steps ⟨s, []⟩).2) ∧
      saga.run.run.run s =
        pure (.ok run, (Orchestration.visit saga.policyFor [] 0 saga.steps ⟨s, []⟩).2.state) ∧
      run.result.isOk = (Orchestration.visit saga.policyFor [] 0 saga.steps ⟨s, []⟩).1 := by
  have hpolicy : ∀ (step : Step σ Id ε π) position, saga.journaled.policyFor (step.journaled position) =
      saga.policyFor step := fun _ _ => rfl
  obtain ⟨run, j, hjournaled, hplain, hvisit⟩ :=
    Orchestration.agree_visit hpolicy saga.steps hretries [] 0 ⟨s, []⟩
  refine ⟨run, ?_, ?_, ?_⟩ <;> rw [hvisit]
  · rw [show saga.journaled.run = Run.visit saga.journaled.policyFor (Step.journaledFrom saga.steps 0) from rfl,
      hjournaled]
    cases run.result.isOk <;> rfl
  · rw [Saga.run, hplain]
    cases run.result.isOk <;> rfl
  · cases run.result.isOk <;> rfl

/-- Two reservations of one name around an optional notice, and a payment that is refused. The first reservation needs
two attempts, a discount does not apply, and the second reservation cannot be undone. -/
def Orchestration.booking : Saga Nat Id String Unit where
  steps :=
    [{ name := "reserve", retry := .fixed 2 0
       execute := fun n => (if n = 0 then .transient "busy" none else .success "reserved" none, n + 1) },
      { name := "discount", applies := fun _ => false, execute := fun n => (.success "discounted" none, n) },
      { name := "notify", mandatory := false, execute := fun n => (.transient "offline" none, n + 1) },
      { name := "reserve", execute := fun n => (.success "reserved" none, n + 1)
        compensate := fun n => (.transient "locked" none, n + 1) },
      { name := "pay", retry := .fixed 5 0, execute := fun n => (.rejected "refused" "card expired", n + 1) }]
  overrides := ∅
  steps_ne_nil := by simp

theorem Orchestration.run_calls_booking :
    ∃ run : Run String,
      booking.journaled.run.run.run ⟨0, []⟩ =
        pure (.ok run,
          ⟨6, [.execute 0, .execute 0, .execute 2, .execute 3, .execute 4, .compensate 3, .compensate 0]⟩) ∧
      run.result.isOk = false := by
  have hretries : ∀ step ∈ booking.steps, (booking.policyFor step).maxRetries.toNat < attemptCounterMax := by
    decide
  obtain ⟨run, hjournaled, -, hok⟩ := booking.run_calls hretries 0
  exact ⟨run, hjournaled, hok⟩

end Missions
