import Missions.Proofs.Saga.Attempts

/-! Failures that lie ahead of a run, and are overcome by its retries. A failed attempt leads to a state in which the
step would do the same as before, with fewer failures left; so the run differs from the one with nothing ahead in
numbers of attempts only. -/

namespace Missions

variable {σ ε π : Type}

def StepRecord.uncounted (r : StepRecord) : StepRecord := { r with attempts := 0 }

def AuditLog.Alike (log log' : AuditLog) : Prop :=
  log.records.map StepRecord.uncounted = log'.records.map StepRecord.uncounted

structure Run.Alike (run run' : Run ε) : Prop where
  result : run.result = run'.result
  audit : run.audit.Alike run'.audit

namespace AuditLog.Alike

variable {log log' : AuditLog}

theorem cons {r r' : StepRecord} (hr : r.uncounted = r'.uncounted) (h : log.Alike log') :
    (log.cons r).Alike (log'.cons r') := by
  rw [Alike, AuditLog.cons, AuditLog.cons, List.map_cons, List.map_cons, hr, h]

end AuditLog.Alike

/-- States with failures ahead of them, within limits, and what each of them is without the failures. -/
structure FaultModel (σ : Type) where
  calm : σ → σ
  within : σ → Prop

/-- What a step makes of failures ahead of it; `ahead` counts those that can strike it. An attempt does what it would do
without them, or it fails in passing, with fewer of them left and with the step about to do the same again. -/
structure Step.Absorbs (L : FaultModel σ) (ahead : σ → ℕ) (I : σ → Prop) (step : Step σ Id ε π) : Prop where
  execute : ∀ s, L.within s → I (L.calm s) →
    (∃ s', step.execute.run s = pure ((step.execute.run (L.calm s)).1, s') ∧
      L.calm s' = (step.execute.run (L.calm s)).2 ∧ L.within s') ∨
    ∃ message cause s', step.execute.run s = pure (.transient message cause, s') ∧ ahead s' < ahead s ∧ L.within s' ∧
      I (L.calm s') ∧ step.execute.run (L.calm s') = step.execute.run (L.calm s)
  lasts : ∀ s, I (L.calm s) → (step.execute.run (L.calm s)).1.isRetryable = false
  compensate : ∀ s, L.within s → ∃ s', step.compensate.run s = pure ((step.compensate.run (L.calm s)).1, s') ∧
    L.calm s' = (step.compensate.run (L.calm s)).2 ∧ L.within s'

namespace Run

variable {L : FaultModel σ} {ahead : σ → ℕ} {I J : σ → Prop}
variable {step : Step σ Id ε π} {rest : List (Step σ Id ε π)} {policy : Step σ Id ε π → RetryPolicy}

/-- Attempts with retries for all failures ahead come to what the only attempt without them comes to, if so many can be
counted. -/
theorem run_attempt_absorbs (h : step.Absorbs L ahead I) (retries made : ℕ) {s : σ} (hs : L.within s)
    (hI : I (L.calm s)) (hretries : ahead s ≤ retries) (hroom : made + ahead s < attemptCounterMax) :
    ∃ n s', (attempt step.execute retries made).run.run s = pure (.ok ⟨n, (step.execute.run (L.calm s)).1⟩, s') ∧
      L.calm s' = (step.execute.run (L.calm s)).2 ∧ L.within s' := by
  -- on the retries that are left
  induction retries generalizing made s with
  | zero =>
    obtain ⟨s', hrun, hview, hs'⟩ | ⟨_, _, s', -, hfewer, -⟩ := h.execute s hs hI
    · refine ⟨made + 1, s', ?_, hview, hs'⟩
      rw [run_attempt_settled (by omega) (.inr rfl), hrun]
      rfl
    · omega
  | succ retries ih =>
    obtain ⟨s', hrun, hview, hs'⟩ | ⟨message, cause, s', hrun, hfewer, hs', hI', hsame⟩ := h.execute s hs hI
    · refine ⟨made + 1, s', ?_, hview, hs'⟩
      rw [run_attempt_settled (by omega) (.inl (by rw [hrun]; exact h.lasts s hI)), hrun]
      rfl
    · rw [run_attempt_again (by omega) (by rw [hrun]; rfl), hrun, ← hsame]
      have hretries' : ahead s' ≤ retries := by omega
      have hroom' : made + 1 + ahead s' < attemptCounterMax := by omega
      exact ih (made + 1) hs' hI' hretries' hroom'

theorem run_attempt_lasts (h : step.Absorbs L ahead I) (retries : ℕ) {s : σ} (hI : I (L.calm s)) :
    (attempt step.execute retries 0).run.run (L.calm s) =
      pure (.ok ⟨1, (step.execute.run (L.calm s)).1⟩, (step.execute.run (L.calm s)).2) :=
  run_attempt_settled (by decide) (.inl (h.lasts s hI))

/-- With failures ahead the visit comes to the same end as without them. -/
def Absorbed (L : FaultModel σ) (policy : Step σ Id ε π → RetryPolicy) (steps : List (Step σ Id ε π)) (s : σ) : Prop :=
  ∃ run s₀ run' s', (visit policy steps).run.run (L.calm s) = pure (.ok run, s₀) ∧
    (visit policy steps).run.run s = pure (.ok run', s') ∧ run'.Alike run ∧ L.calm s' = s₀ ∧ L.within s'

theorem absorbed_nil {s : σ} (hs : L.within s) : Absorbed L policy [] s :=
  ⟨.ended, L.calm s, .ended, s, rfl, rfl, ⟨rfl, rfl⟩, rfl, hs⟩

theorem Alike.skipping {run run' : Run ε} (h : run'.Alike run) (name : String) :
    (run'.skipping name).Alike (run.skipping name) where
  result := congrArg (Except.map _) h.result
  audit := .cons rfl h.audit

theorem run_closing_error (step : Step σ Id ε π) (tries : Tries ε π) (aborted : Aborted ε) (audit : AuditLog) (s : σ) :
    (closing step tries ⟨.error aborted, audit⟩).run s =
      pure (⟨.error (aborted.afterUndo step.name step.undoing (step.compensate.run s).1),
        audit.cons ((StepRecord.executed step.name tries.attempts tries.result.message step.undoing).compensated
          (step.compensate.run s).1.isSuccess (step.compensate.run s).1.message)⟩, (step.compensate.run s).2) := rfl

theorem Alike.closing (h : step.Absorbs L ahead I) {run run' : Run ε} (hrun : run'.Alike run) {s : σ}
    (hs : L.within s) (result : StepResult ε π) (attempts attempts' : ℕ) :
    ∃ closed closed' s' s₀, (Run.closing step ⟨attempts, result⟩ run).run (L.calm s) = pure (closed, s₀) ∧
      (Run.closing step ⟨attempts', result⟩ run').run s = pure (closed', s') ∧ closed'.Alike closed ∧ L.calm s' = s₀ ∧
      L.within s' := by
  obtain ⟨outcome, audit⟩ := run
  obtain ⟨outcome', audit'⟩ := run'
  obtain ⟨houtcome, haudit⟩ := hrun
  obtain rfl : outcome' = outcome := houtcome
  cases outcome' with
  | ok report => exact ⟨_, _, s, _, rfl, rfl, ⟨rfl, .cons rfl haudit⟩, rfl, hs⟩
  | error aborted =>
    obtain ⟨s', hundo, hview, hs'⟩ := h.compensate s hs
    have hclosed' := run_closing_error step ⟨attempts', result⟩ aborted audit' s
    rw [hundo] at hclosed'
    exact ⟨_, _, s', _, run_closing_error .., hclosed', ⟨rfl, .cons rfl haudit⟩, hview, hs'⟩

theorem absorbed_cons (h : step.Absorbs L ahead fun s => I s ∧ step.applies s = true)
    (happlies : ∀ s, step.applies s = step.applies (L.calm s))
    (hahead : ∀ s, L.within s → ahead s ≤ (policy step).maxRetries.toNat)
    (hroom : ∀ s, L.within s → ahead s < attemptCounterMax)
    (hskip : ∀ s, I (L.calm s) → step.applies (L.calm s) = false → J (L.calm s))
    (hnext : ∀ s, I (L.calm s) → step.applies (L.calm s) = true → (step.execute.run (L.calm s)).1.isSuccess = true →
      J (step.execute.run (L.calm s)).2)
    (hrest : ∀ s, L.within s → J (L.calm s) → Absorbed L policy rest s) {s : σ} (hs : L.within s)
    (hI : I (L.calm s)) : Absorbed L policy (step :: rest) s := by
  cases hbegins : step.applies (L.calm s) with
  | false =>
    obtain ⟨run, s₀, run', s', hcalm, hrun, halike, hview, hs'⟩ := hrest s hs (hskip s hI hbegins)
    refine ⟨run.skipping step.name, s₀, run'.skipping step.name, s', ?_, ?_, halike.skipping _, hview, hs'⟩
    · rw [run_visit_skip _ _ hbegins, hcalm]
      rfl
    · rw [run_visit_skip _ _ ((happlies s).trans hbegins), hrun]
      rfl
  | true =>
    have hlasts := h.lasts s ⟨hI, hbegins⟩
    have hnext := hnext s hI hbegins
    have hcalm := run_visit_attempt policy rest hbegins
    have hrun := run_visit_attempt policy rest ((happlies s).trans hbegins)
    obtain ⟨n, s', htries, hview, hs'⟩ := run_attempt_absorbs h (policy step).maxRetries.toNat 0 hs ⟨hI, hbegins⟩
      (hahead s hs) (by simpa using hroom s hs)
    rw [run_attempt_lasts h _ ⟨hI, hbegins⟩, pure_bind, resume_ok] at hcalm
    rw [htries, pure_bind, resume_ok] at hrun
    generalize step.execute.run (L.calm s) = called at hlasts hnext hcalm hview hrun
    obtain ⟨result, s₁⟩ := called
    obtain rfl : L.calm s' = s₁ := hview
    dsimp only at hlasts hnext hcalm hrun
    cases hok : result.isSuccess with
    | true =>
      rw [hok, if_pos rfl] at hcalm hrun
      obtain ⟨later, s₂, later', s₂', hlater, hlater', halike, rfl, hs₂'⟩ := hrest s' hs' (hnext hok)
      obtain ⟨closed, closed', s₃', s₃, hclosed, hclosed', halike', hs₃, hs₃'⟩ := halike.closing h hs₂' result 1 n
      rw [hlater, pure_bind, resume_ok, hclosed] at hcalm
      rw [hlater', pure_bind, resume_ok, hclosed'] at hrun
      exact ⟨closed, s₃, closed', s₃', hcalm, hrun, halike', hs₃, hs₃'⟩
    | false =>
      have hrejected : result.isRejected = true := by
        cases result with
        | rejected => rfl
        | success => cases hok
        | transient => cases hlasts
      rw [hok, hrejected, Bool.or_true] at hcalm hrun
      exact ⟨_, _, _, s', hcalm, hrun, ⟨rfl, .cons rfl rfl⟩, rfl, hs'⟩

end Run

end Missions
