import Missions.Completion.Operation
import Missions.Proofs.Saga.Visits

namespace Missions

namespace CompletionError

/-- The compensations that failed while a completion was undone. -/
def undoFailures : CompletionError → List (UndoFailure CompletionError)
  | stoppedPartlyUndone _ _ _ failures => failures
  | _ => []

/-- The names of the steps that could not be undone. -/
def stepsNotUndone (e : CompletionError) : List String := e.undoFailures.map (·.step)

/-- What the step that stopped a completion failed with. -/
def stepCause : CompletionError → Option CompletionError
  | stopped _ _ cause | stoppedPartlyUndone _ _ cause _ => cause
  | _ => none

def leftClaimed : CompletionError → Option Int
  | executionNotReleased execution _ _ => some execution
  | _ => none

theorem leftClaimed_of_isValidation (e : CompletionError) (h : e.isValidation = true) : e.leftClaimed = none := by
  cases e <;> first | rfl | cases h

theorem undoFailures_ofAborted (a : Aborted CompletionError) : (ofAborted a).undoFailures = a.undoFailures := by
  cases a <;> rfl

theorem stepCause_ofAborted (a : Aborted CompletionError) : (ofAborted a).stepCause = a.cause := by
  cases a <;> rfl

end CompletionError

namespace Operation

theorem steps_foldl_override (overrides : List (String × RetryPolicy))
    (saga : Saga Context (Program Context) CompletionError Receipt) :
    (overrides.foldl (fun saga (name, policy) => saga.override name policy) saga).steps = saga.steps := by
  induction overrides generalizing saga with
  | nil => rfl
  | cons row rest ih => exact ih _

theorem policyFor_foldl_override (overrides : List (String × RetryPolicy))
    (saga : Saga Context (Program Context) CompletionError Receipt) (step : CompletionStep) :
    (overrides.foldl (fun saga (name, policy) => saga.override name policy) saga).policyFor step =
        saga.policyFor step ∨
      ∃ row ∈ overrides,
        (overrides.foldl (fun saga (name, policy) => saga.override name policy) saga).policyFor step = row.2 := by
  induction overrides generalizing saga with
  | nil => exact .inl rfl
  | cons row rest ih =>
    obtain ⟨name, policy⟩ := row
    rcases ih (saga.override name policy) with h | ⟨row, hrow, h⟩
    · by_cases hname : step.name = name
      · refine .inr ⟨(name, policy), List.mem_cons_self, ?_⟩
        rw [List.foldl_cons, h, Saga.policyFor, Saga.override, hname, Table.get?_insert_self]
        rfl
      · refine .inl ?_
        rw [List.foldl_cons, h, Saga.policyFor, Saga.override, Table.get?_insert_of_ne _ hname]
        rfl
    · exact .inr ⟨row, List.mem_cons_of_mem _ hrow, h⟩

variable (o : Operation)

theorem steps_saga : o.saga.steps =
    [Loading.step, UserReward.step, Advance.step, Closing.step, GuildReward.step, Sharing.step] :=
  steps_foldl_override _ untuned

/-- Settings with retries that can be counted. -/
def Countable : Prop := ∀ row ∈ o.settings.steps, row.2.maxRetries.toNat < attemptCounterMax

instance : Decidable o.Countable :=
  inferInstanceAs (Decidable (∀ row ∈ o.settings.steps, row.2.maxRetries.toNat < attemptCounterMax))

theorem Countable.policyFor {o : Operation} (h : o.Countable) {step : CompletionStep} (hstep : step ∈ o.saga.steps) :
    (o.saga.policyFor step).maxRetries.toNat < attemptCounterMax := by
  rcases policyFor_foldl_override o.settings.retryOverrides untuned step with hpolicy | ⟨row, hrow, hpolicy⟩
  · have honce : ∀ step ∈ untuned.steps, (untuned.policyFor step).maxRetries.toNat < attemptCounterMax := by decide
    rw [steps_saga] at hstep
    rw [saga, hpolicy]
    exact honce step hstep
  · obtain ⟨⟨name, retry⟩, hmem, rfl⟩ := List.mem_map.1 hrow
    rw [saga, hpolicy]
    exact h (name, retry) hmem

def concluded : Except Interruption (Run CompletionError) × Context →
    Except Interruption (Except CompletionError Completion × AuditLog)
  | (.error i, _) => .error i
  | (.ok ⟨.ok report, audit⟩, ctx) => .ok (Completion.ofRun ctx report, audit)
  | (.ok ⟨.error aborted, audit⟩, _) => .ok (.error (.ofAborted aborted), audit)

theorem complete_eq_concluded (r : Request) :
    o.complete r = o.saga.run.run.run (.start (o.effective r)) >>= fun x => pure (concluded x) := by
  rw [complete]
  refine congrArg _ (funext fun x => ?_)
  obtain ⟨_ | ⟨_ | _, _⟩, _⟩ := x <;> rfl

theorem obeys_complete {G : Type} {P : Protocol Context G} {I D : Context → G → Prop}
    {U : Aborted CompletionError → Context → G → Prop} (h : Run.Visits P o.saga.policyFor o.saga.steps I D U)
    (request : Request) {g : G} (hI : I (.start (o.effective request)) g)
    {Q : Except Interruption (Except CompletionError Completion × AuditLog) → G → Prop}
    (hend : ∀ ctx g report audit, D ctx g → Q (.ok (Completion.ofRun ctx report, audit)) g)
    (habort : ∀ a ctx g audit, U a ctx g → Q (.ok (.error (.ofAborted a), audit)) g)
    (hinterrupted : ∀ i g, ¬ o.Countable → Q (.error i) g) : (o.complete request).Obeys P Q g := by
  rw [complete, Program.obeys_bind]
  refine Program.Obeys.mono (h _ g hI) fun r g hr => ?_
  obtain ⟨i | ⟨aborted | report, audit⟩, ctx⟩ := r
  · obtain ⟨step, hstep, hfull⟩ := hr
    exact hinterrupted i g fun hcount => absurd (hcount.policyFor hstep) (Nat.not_lt.2 hfull)
  · exact habort aborted ctx g audit hr
  · exact hend ctx g report audit hr

end Operation

end Missions
