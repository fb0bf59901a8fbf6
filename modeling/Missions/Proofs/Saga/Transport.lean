import Mathlib.Data.List.Forall2
import Missions.Proofs.Saga.Unfolding

/-! A reading takes computations over one state to computations over another and respects how they are put together.
Where the steps of two sagas correspond under a reading, the runs correspond as well. -/

namespace Missions

structure Reading (m n : Type → Type) [Monad m] [Monad n] (σ τ : Type) where
  view : σ → τ
  read : {α : Type} → m (α × σ) → n (α × τ)
  read_pure : ∀ {α : Type} (a : α) (s : σ), read (pure (a, s)) = pure (a, view s)
  read_bind : ∀ {α β : Type} (x : m (α × σ)) {f : α × σ → m (β × σ)} {f' : α × τ → n (β × τ)},
    (∀ a s, read (f (a, s)) = f' (a, view s)) → read (x >>= f) = read x >>= f'

/-- A way to read computations over `σ` as computations over `τ`, which goes by something in `ι` of its own. -/
structure Threading (m n : Type → Type) [Monad m] [Monad n] (σ ι τ : Type) where
  view : σ → ι → τ
  read : {α : Type} → m (α × σ) → ι → n (α × τ)
  read_pure : ∀ {α : Type} (a : α) (s : σ) (i : ι), read (pure (a, s)) i = pure (a, view s i)
  read_bind : ∀ {α β : Type} (x : m (α × σ)) {f : α × σ → m (β × σ)} {f' : α × τ → n (β × τ)},
    (∀ a s i, read (f (a, s)) i = f' (a, view s i)) → ∀ i, read (x >>= f) i = read x i >>= f'

variable {σ ι τ ε π : Type} {m n : Type → Type} [Monad m] [Monad n]

structure Step.Reads (R : Reading m n σ τ) (step : Step σ m ε π) (step' : Step τ n ε π) : Prop where
  name : step.name = step'.name
  undoing : step.undoing = step'.undoing
  mandatory : step.mandatory = step'.mandatory
  applies : ∀ s, step.applies s = step'.applies (R.view s)
  execute : ∀ s, R.read (step.execute.run s) = step'.execute.run (R.view s)
  compensate : ∀ s, R.read (step.compensate.run s) = step'.compensate.run (R.view s)

structure Step.Threads (T : Threading m n σ ι τ) (step : Step σ m ε π) (step' : Step τ n ε π) : Prop where
  name : step.name = step'.name
  undoing : step.undoing = step'.undoing
  mandatory : step.mandatory = step'.mandatory
  applies : ∀ s i, step.applies s = step'.applies (T.view s i)
  execute : ∀ s i, T.read (step.execute.run s) i = step'.execute.run (T.view s i)
  compensate : ∀ s i, T.read (step.compensate.run s) i = step'.compensate.run (T.view s i)

def Reading.threading (R : Reading m n σ τ) : Threading m n σ Unit τ where
  view s _ := R.view s
  read x _ := R.read x
  read_pure a s _ := R.read_pure a s
  read_bind x _ _ h _ := R.read_bind x fun a s => h a s ()

theorem Step.Reads.threads {R : Reading m n σ τ} {step : Step σ m ε π} {step' : Step τ n ε π}
    (h : step.Reads R step') : step.Threads R.threading step' where
  name := h.name
  undoing := h.undoing
  mandatory := h.mandatory
  applies s _ := h.applies s
  execute s _ := h.execute s
  compensate s _ := h.compensate s

namespace Run

variable {T : Threading m n σ ι τ} {step : Step σ m ε π} {step' : Step τ n ε π}

theorem thread_resume {α β : Type} {next : α → σ → m (Except Interruption β × σ)}
    {next' : α → τ → n (Except Interruption β × τ)} (hnext : ∀ a s i, T.read (next a s) i = next' a (T.view s i))
    (x : m (Except Interruption α × σ)) (i : ι) : T.read (x >>= resume next) i = T.read x i >>= resume next' := by
  refine T.read_bind x (fun a s i => ?_) i
  cases a with
  | ok a => exact hnext a s i
  | error e => exact T.read_pure (Except.error e) s i

theorem thread_closing (hstep : step.Threads T step') (tries : Tries ε π) (run : Run ε) (s : σ) (i : ι) :
    T.read ((closing step tries run).run s) i = (closing step' tries run).run (T.view s i) := by
  obtain ⟨aborted | report, audit⟩ := run
  · rw [closing, closing, StateT.run_bind, StateT.run_bind, ← hstep.compensate, hstep.name, hstep.undoing]
    refine T.read_bind _ (fun undo s i => ?_) i
    exact T.read_pure _ s i
  · rw [closing, closing, hstep.name, hstep.undoing]
    exact T.read_pure _ s i

variable [LawfulMonad m] [LawfulMonad n]

theorem thread_attempt {execute : StateT σ m (StepResult ε π)} {execute' : StateT τ n (StepResult ε π)}
    (hexecute : ∀ s i, T.read (execute.run s) i = execute'.run (T.view s i)) (retries made : Nat) (s : σ) (i : ι) :
    T.read ((attempt execute retries made).run.run s) i = (attempt execute' retries made).run.run (T.view s i) := by
  -- on the retries that are left
  induction retries generalizing made s i with
  | zero =>
    by_cases hmade : made < attemptCounterMax
    · rw [run_attempt _ _ hmade, run_attempt _ _ hmade, ← hexecute]
      refine T.read_bind _ (fun result s i => ?_) i
      cases result <;> exact T.read_pure _ s i
    · rw [run_attempt_full _ _ hmade, run_attempt_full _ _ hmade]
      exact T.read_pure _ s i
  | succ retries ih =>
    by_cases hmade : made < attemptCounterMax
    · rw [run_attempt _ _ hmade, run_attempt _ _ hmade, ← hexecute]
      refine T.read_bind _ (fun result s i => ?_) i
      cases result with
      | success => exact T.read_pure _ s i
      | transient => exact ih (made + 1) s i
      | rejected => exact T.read_pure _ s i
    · rw [run_attempt_full _ _ hmade, run_attempt_full _ _ hmade]
      exact T.read_pure _ s i

theorem thread_visit {policy : Step σ m ε π → RetryPolicy} {policy' : Step τ n ε π → RetryPolicy}
    {steps : List (Step σ m ε π)} {steps' : List (Step τ n ε π)}
    (hsteps : List.Forall₂ (fun step step' => step.Threads T step' ∧ policy step = policy' step') steps steps')
    (s : σ) (i : ι) : T.read ((visit policy steps).run.run s) i = (visit policy' steps').run.run (T.view s i) := by
  induction hsteps generalizing s i with
  | nil => exact T.read_pure _ s i
  | @cons step step' rest rest' hstep hrest ih =>
    obtain ⟨hthreads, hpolicy⟩ := hstep
    cases happlies : step.applies s with
    | false =>
      have happlies' : step'.applies (T.view s i) = false := by rw [← hthreads.applies, happlies]
      rw [run_visit_skip policy rest happlies, run_visit_skip policy' rest' happlies', hthreads.name, ← ih]
      exact thread_resume (fun run s i => T.read_pure _ s i) _ i
    | true =>
      have happlies' : step'.applies (T.view s i) = true := by rw [← hthreads.applies, happlies]
      rw [run_visit_attempt policy rest happlies, run_visit_attempt policy' rest' happlies', hpolicy,
        ← thread_attempt hthreads.execute, hthreads.mandatory, hthreads.name]
      refine thread_resume (fun tries s i => ?_) _ i
      split
      · rw [← ih]
        refine thread_resume (fun run s i => ?_) _ i
        rw [← thread_closing hthreads]
        refine T.read_bind _ (fun run s i => ?_) i
        exact T.read_pure _ s i
      · split
        · exact T.read_pure _ s i
        · rw [← ih]
          exact thread_resume (fun run s i => T.read_pure _ s i) _ i

theorem read_visit {R : Reading m n σ τ} {policy : Step σ m ε π → RetryPolicy} {policy' : Step τ n ε π → RetryPolicy}
    {steps : List (Step σ m ε π)} {steps' : List (Step τ n ε π)}
    (hsteps : List.Forall₂ (fun step step' => step.Reads R step' ∧ policy step = policy' step') steps steps') (s : σ) :
    R.read ((visit policy steps).run.run s) = (visit policy' steps').run.run (R.view s) :=
  thread_visit (T := R.threading) (hsteps.imp fun _ _ h => ⟨h.1.threads, h.2⟩) s ()

end Run

end Missions
