import Missions.Saga.Run

namespace Missions

theorem Aborted.cause_afterUndo {ε π : Type} (a : Aborted ε) (step description : String) (undo : StepResult ε π) :
    (a.afterUndo step description undo).cause = a.cause := by
  rw [afterUndo]
  split <;> rfl

theorem Aborted.undoFailures_afterUndo {ε π : Type} (a : Aborted ε) (step description : String)
    (undo : StepResult ε π) : (a.afterUndo step description undo).undoFailures =
      if undo.isSuccess then a.undoFailures
      else a.undoFailures ++ [⟨step, description, undo.message, undo.cause⟩] := by
  rw [afterUndo]
  split <;> rfl

namespace Run

variable {σ : Type} {m : Type → Type} [Monad m] {ε π α β : Type}

/-- Goes on with what a piece of a run came to, unless the run was interrupted. -/
def resume (next : α → σ → m (Except Interruption β × σ)) :
    Except Interruption α × σ → m (Except Interruption β × σ)
  | (.ok a, s) => next a s
  | (.error i, s) => pure (.error i, s)

@[simp] theorem resume_ok (next : α → σ → m (Except Interruption β × σ)) (a : α) (s : σ) :
    resume next (.ok a, s) = next a s := rfl

theorem run_bind (p : ExceptT Interruption (StateT σ m) α) (f : α → ExceptT Interruption (StateT σ m) β) (s : σ) :
    (p >>= f).run.run s = p.run.run s >>= resume fun a s => (f a).run.run s := by
  rw [ExceptT.run_bind, StateT.run_bind]
  congr 1
  funext ⟨r, s'⟩
  cases r <;> rfl

theorem run_attempt_full (execute : StateT σ m (StepResult ε π)) (retries : Nat) {made : Nat}
    (h : ¬ made < attemptCounterMax) (s : σ) :
    (attempt execute retries made).run.run s = pure (.error .attemptCounterFull, s) := by
  rw [attempt.eq_def, if_neg h]
  rfl

@[simp] theorem isOk_skipping (name : String) (run : Run ε) :
    (run.skipping name).result.isOk = run.result.isOk := by
  obtain ⟨_ | _, _⟩ := run <;> rfl

@[simp] theorem isOk_passingOver (name : String) (tries : Tries ε π) (run : Run ε) :
    (run.passingOver name tries).result.isOk = run.result.isOk := by
  obtain ⟨_ | _, _⟩ := run <;> rfl

variable [LawfulMonad m]

theorem run_lift (x : StateT σ m α) (s : σ) :
    (liftM x : ExceptT Interruption (StateT σ m) α).run.run s = x.run s >>= fun r => pure (.ok r.1, r.2) := by
  change (Except.ok <$> x).run s = _
  rw [StateT.run_map, map_eq_pure_bind]

theorem run_get (s : σ) : (get : ExceptT Interruption (StateT σ m) σ).run.run s = pure (.ok s, s) := by
  change (liftM (get : StateT σ m σ) : ExceptT Interruption (StateT σ m) σ).run.run s = _
  rw [run_lift, StateT.run_get, pure_bind]

theorem run_attempt (execute : StateT σ m (StepResult ε π)) (retries : Nat) {made : Nat}
    (h : made < attemptCounterMax) (s : σ) :
    (attempt execute retries made).run.run s = execute.run s >>= fun r =>
      match r.1.isRetryable, retries with
      | true, retries + 1 => (attempt execute retries (made + 1)).run.run r.2
      | _, _ => pure (.ok ⟨made + 1, r.1⟩, r.2) := by
  have hlift := run_lift execute s
  rw [attempt.eq_def, if_pos h, run_bind, hlift, bind_assoc]
  refine congrArg _ (funext fun r => ?_)
  rw [pure_bind, resume_ok]
  cases r.1.isRetryable <;> cases retries <;> rfl

theorem run_visit_skip (policy : Step σ m ε π → RetryPolicy) {step : Step σ m ε π} (rest : List (Step σ m ε π))
    {s : σ} (h : step.applies s = false) :
    (visit policy (step :: rest)).run.run s = (visit policy rest).run.run s >>=
      resume fun run s => pure (.ok (run.skipping step.name), s) := by
  rw [visit, run_bind, run_get, pure_bind, resume_ok, h, if_neg (by simp), run_bind]
  rfl

theorem run_visit_attempt (policy : Step σ m ε π → RetryPolicy) {step : Step σ m ε π} (rest : List (Step σ m ε π))
    {s : σ} (h : step.applies s = true) :
    (visit policy (step :: rest)).run.run s =
      (attempt step.execute (policy step).maxRetries.toNat 0).run.run s >>= resume fun tries s =>
        if tries.result.isSuccess then
          (visit policy rest).run.run s >>= resume fun run s =>
            (closing step tries run).run s >>= fun r => pure (.ok r.1, r.2)
        else if step.mandatory || tries.result.isRejected then
          pure (.ok (stopped step.name tries), s)
        else
          (visit policy rest).run.run s >>= resume fun run s => pure (.ok (run.passingOver step.name tries), s) := by
  rw [visit, run_bind, run_get, pure_bind, resume_ok, if_pos h, run_bind]
  congr 2
  funext tries s
  split
  · rw [run_bind]
    rfl
  · split
    · rfl
    · rw [run_bind]
      rfl

theorem run_visit_interrupted {policy : Step σ m ε π → RetryPolicy} {step : Step σ m ε π} (rest : List (Step σ m ε π))
    {s s' : σ} {i : Interruption} (happlies : step.applies s = true)
    (hrun : (attempt step.execute (policy step).maxRetries.toNat 0).run.run s = pure (.error i, s')) :
    (visit policy (step :: rest)).run.run s = pure (.error i, s') := by
  rw [run_visit_attempt _ _ happlies, hrun, pure_bind]
  rfl

theorem run_visit_interrupted_later {policy : Step σ m ε π → RetryPolicy} {step : Step σ m ε π}
    {rest : List (Step σ m ε π)} {s s' s'' : σ} {tries : Tries ε π} {i : Interruption}
    (happlies : step.applies s = true)
    (hrun : (attempt step.execute (policy step).maxRetries.toNat 0).run.run s = pure (.ok tries, s'))
    (hok : tries.result.isSuccess = true) (hrest : (visit policy rest).run.run s' = pure (.error i, s'')) :
    (visit policy (step :: rest)).run.run s = pure (.error i, s'') := by
  rw [run_visit_attempt _ _ happlies, hrun, pure_bind, resume_ok, if_pos hok, hrest, pure_bind]
  rfl

end Run

end Missions
