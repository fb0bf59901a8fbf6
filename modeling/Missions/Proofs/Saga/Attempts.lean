import Mathlib.Data.ENat.Lattice
import Missions.Proofs.Saga.Assembly
import Missions.Proofs.Saga.Story

/-! The calls of a step, made one after another with nothing in between, give an endless sequence of results; the
attempts take from it up to the first result that is not a passing failure, or as many as the policy allows. -/

namespace Missions

variable {σ ε π : Type}

/-! ### Sequences of results -/

/-- The position, counted from one, of the first result that is not a passing failure: infinite if there is none. -/
noncomputable def settledAt (results : ℕ → StepResult ε π) : ℕ∞ :=
  ⨅ (k : ℕ) (_ : (results k).isRetryable = false), (k : ℕ∞) + 1

theorem settledAt_of_lasts {results : ℕ → StepResult ε π} (h : (results 0).isRetryable = false) :
    settledAt results = 1 := by
  refine le_antisymm ?_ ?_
  · exact (iInf₂_le 0 h).trans_eq (by simp)
  · exact le_iInf₂ fun k _ => le_add_self

theorem settledAt_of_passes {results : ℕ → StepResult ε π} (h : (results 0).isRetryable = true) :
    settledAt results = settledAt (fun k => results (k + 1)) + 1 := by
  rw [settledAt, settledAt, ENat.iInf_add]
  simp only [ENat.iInf_add]
  refine le_antisymm (le_iInf₂ fun k hk => ?_) (le_iInf₂ fun k hk => ?_)
  · exact (iInf₂_le (k + 1) hk).trans_eq (by push_cast; rfl)
  · cases k with
    | zero => rw [h] at hk; cases hk
    | succ k => exact (iInf₂_le k hk).trans_eq (by push_cast; rfl)

namespace Step

variable (step : Step σ Id ε π)

def stateAfter (s : σ) (calls : ℕ) : σ := (fun s => (step.execute.run s).2)^[calls] s

/-- What the calls in a row report, one after another. -/
def reports (s : σ) (k : ℕ) : StepResult ε π := (step.execute.run (step.stateAfter s k)).1

/-- The last attempt, counted from zero, that a step makes from a state if it has so many retries. -/
def LastAttempt (retries : ℕ) (s : σ) (last : ℕ) : Prop :=
  (last : ℕ∞) + 1 = min (settledAt (step.reports s)) (retries + 1)

theorem stateAfter_succ (s : σ) (calls : ℕ) :
    step.stateAfter s (calls + 1) = step.stateAfter (step.execute.run s).2 calls := rfl

theorem stateAfter_succ' (s : σ) (calls : ℕ) :
    step.stateAfter s (calls + 1) = (step.execute.run (step.stateAfter s calls)).2 :=
  Function.iterate_succ_apply' _ calls s

theorem reports_zero (s : σ) : step.reports s 0 = (step.execute.run s).1 := rfl

theorem reports_succ (s : σ) : (fun k => step.reports s (k + 1)) = step.reports (step.execute.run s).2 := rfl

variable {step}

theorem lastAttempt_of_lasts {retries : ℕ} {s : σ} (h : (step.reports s 0).isRetryable = false) :
    step.LastAttempt retries s 0 := by
  rw [LastAttempt, settledAt_of_lasts h, min_eq_left le_add_self]
  rfl

theorem lastAttempt_of_noRetry {s : σ} : step.LastAttempt 0 s 0 := by
  cases h : (step.reports s 0).isRetryable with
  | false => exact lastAttempt_of_lasts h
  | true =>
    rw [LastAttempt, settledAt_of_passes h, Nat.cast_zero, min_add_add_right, min_eq_right zero_le]

theorem LastAttempt.succ {retries : ℕ} {s : σ} {last : ℕ} (h : (step.reports s 0).isRetryable = true)
    (hlast : step.LastAttempt retries (step.execute.run s).2 last) : step.LastAttempt (retries + 1) s (last + 1) := by
  rw [LastAttempt, settledAt_of_passes h, reports_succ, min_add_add_right, Nat.cast_succ, Nat.cast_succ, ← hlast]

end Step

namespace Run

theorem run_attempt_settled {execute : StateT σ Id (StepResult ε π)} {retries made : ℕ} {s : σ}
    (hmade : made < attemptCounterMax) (h : (execute.run s).1.isRetryable = false ∨ retries = 0) :
    (attempt execute retries made).run.run s = pure (.ok ⟨made + 1, (execute.run s).1⟩, (execute.run s).2) := by
  rw [run_attempt _ _ hmade]
  generalize execute.run s = called at h ⊢
  obtain ⟨result, s'⟩ := called
  rcases h with h | rfl
  · cases result with
    | transient => cases h
    | success | rejected => rfl
  · cases result <;> rfl

theorem run_attempt_again {execute : StateT σ Id (StepResult ε π)} {retries made : ℕ} {s : σ}
    (hmade : made < attemptCounterMax) (h : (execute.run s).1.isRetryable = true) :
    (attempt execute (retries + 1) made).run.run s =
      (attempt execute retries (made + 1)).run.run (execute.run s).2 := by
  rw [run_attempt _ _ hmade]
  generalize execute.run s = called at h ⊢
  obtain ⟨result, s'⟩ := called
  cases result with
  | transient => rfl
  | success | rejected => cases h

theorem exists_lastAttempt (step : Step σ Id ε π) (retries made : ℕ) (h : made + retries < attemptCounterMax) (s : σ) :
    ∃ last, step.LastAttempt retries s last ∧
      (attempt step.execute retries made).run.run s =
        pure (.ok ⟨made + (last + 1), step.reports s last⟩, step.stateAfter s (last + 1)) := by
  -- on the retries that are left, with the state after the first call
  induction retries generalizing made s with
  | zero => exact ⟨0, Step.lastAttempt_of_noRetry, run_attempt_settled (by omega) (.inr rfl)⟩
  | succ retries ih =>
    cases hretry : (step.execute.run s).1.isRetryable with
    | false => exact ⟨0, Step.lastAttempt_of_lasts hretry, run_attempt_settled (by omega) (.inl hretry)⟩
    | true =>
      obtain ⟨last, hlast, hrun⟩ := ih (made + 1) (by omega) (step.execute.run s).2
      refine ⟨last + 1, hlast.succ hretry, ?_⟩
      rw [run_attempt_again (by omega) hretry, hrun, Nat.add_right_comm made 1, Nat.add_assoc made]
      rfl

end Run

/-! ### Results written down -/

namespace Step

variable (step : Step σ Id ε π) (position : ℕ) (h : Chronicle σ ε π)

theorem stateAfter_chronicled (calls : ℕ) :
    (step.chronicled position).stateAfter h calls =
      ⟨step.stateAfter h.state calls,
        h.entries ++ executions position ((List.range calls).map (step.reports h.state))⟩ := by
  induction calls with
  | zero => simp [stateAfter, executions]
  | succ calls ih =>
    rw [stateAfter_succ', ih, stateAfter_succ', List.range_succ, List.map_append, executions_append,
      ← List.append_assoc]
    rfl

theorem reports_chronicled : (step.chronicled position).reports h = step.reports h.state := by
  funext k
  rw [reports, stateAfter_chronicled]
  rfl

theorem lastAttempt_chronicled {retries last : ℕ} :
    (step.chronicled position).LastAttempt retries h last ↔ step.LastAttempt retries h.state last := by
  rw [LastAttempt, LastAttempt, reports_chronicled]

end Step

/-! ### Whole runs -/

def Entry.isAttempt (e : Entry ε π) : Bool :=
  match e.call with
  | .execute _ => true
  | .compensate _ => false

def Step.stopsAt (step : Step σ Id ε π) (result : StepResult ε π) : Bool :=
  !result.isSuccess && (step.mandatory || result.isRejected)

/-- The attempts of a visit that begins in a state, in their order. -/
inductive Course (policy : Step σ Id ε π → RetryPolicy) : ℕ → List (Step σ Id ε π) → σ → List (Entry ε π) → Prop
  | ended {position : ℕ} {s : σ} : Course policy position [] s []
  | skipping {position : ℕ} {step : Step σ Id ε π} {rest : List (Step σ Id ε π)} {s : σ} {entries : List (Entry ε π)}
      (applies : step.applies s = false) (later : Course policy (position + 1) rest s entries) :
      Course policy position (step :: rest) s entries
  | stopped {position : ℕ} {step : Step σ Id ε π} {rest : List (Step σ Id ε π)} {s : σ} {last : ℕ}
      (applies : step.applies s = true) (tried : step.LastAttempt (policy step).maxRetries.toNat s last)
      (stops : step.stopsAt (step.reports s last) = true) :
      Course policy position (step :: rest) s (executions position ((List.range (last + 1)).map (step.reports s)))
  | goingOn {position : ℕ} {step : Step σ Id ε π} {rest : List (Step σ Id ε π)} {s : σ} {last : ℕ}
      {entries : List (Entry ε π)} (applies : step.applies s = true)
      (tried : step.LastAttempt (policy step).maxRetries.toNat s last)
      (stops : step.stopsAt (step.reports s last) = false)
      (later : Course policy (position + 1) rest (step.stateAfter s (last + 1)) entries) :
      Course policy position (step :: rest) s
        (executions position ((List.range (last + 1)).map (step.reports s)) ++ entries)

theorem filter_isAttempt_executions (position : ℕ) (results : List (StepResult ε π)) :
    (executions position results).filter Entry.isAttempt = executions position results := by
  simp [executions, Entry.isAttempt]

theorem filter_isAttempt_compensate (position : ℕ) (undo : StepResult ε π) :
    [(⟨.compensate position, undo⟩ : Entry ε π)].filter Entry.isAttempt = [] := rfl

namespace Run

/-- The attempts among what was written down since `h` are those of a visit that began there. -/
def CourseSince (h : Chronicle σ ε π) (policy : Step σ Id ε π → RetryPolicy) (position : ℕ)
    (steps : List (Step σ Id ε π)) (h' : Chronicle σ ε π) : Prop :=
  ∃ entries, h'.entries = h.entries ++ entries ∧
    Course policy position steps h.state (entries.filter Entry.isAttempt)

theorem closing_courseSince {h h' : Chronicle σ ε π} {policy : Step σ Id ε π → RetryPolicy} {position undone : ℕ}
    {step : Step σ Id ε π} {steps : List (Step σ Id ε π)} {tries : Tries ε π} {run : Run ε}
    (hrun : CourseSince h policy position steps h') :
    Logic.plain.Obeys ((closing (step.chronicled undone) tries run).run h')
      (fun r _ => CourseSince h policy position steps r.2) () := by
  obtain ⟨entries, hentries, hcourse⟩ := hrun
  obtain ⟨aborted | report, audit⟩ := run
  · refine ⟨entries ++ [⟨.compensate undone, (step.compensate.run h'.state).1⟩], ?_, ?_⟩
    · rw [← List.append_assoc, ← hentries]
      rfl
    · rwa [List.filter_append, filter_isAttempt_compensate, List.append_nil]
  · exact ⟨entries, hentries, hcourse⟩

theorem passes_course {policy : Step (Chronicle σ ε π) Id ε π → RetryPolicy} {policy' : Step σ Id ε π → RetryPolicy}
    (hpolicy : ∀ step position, policy (step.chronicled position) = policy' step) (steps : List (Step σ Id ε π))
    (hretries : ∀ step ∈ steps, (policy' step).maxRetries.toNat < attemptCounterMax) (position : ℕ)
    (h : Chronicle σ ε π) :
    Passes .plain policy (Step.chronicledFrom steps position) (fun h' _ => h' = h)
      (fun _ h' _ => CourseSince h policy' position steps h') := by
  induction steps generalizing position h with
  | nil =>
    refine Passes.nil fun h' g hh => ⟨[], ?_, .ended⟩
    rw [hh, List.append_nil]
  | cons step rest ih =>
    have ih := ih fun step' hstep' => hretries step' (List.mem_cons_of_mem step hstep')
    have hcons : Step.chronicledFrom (step :: rest) position =
        step.chronicled position :: Step.chronicledFrom rest (position + 1) := rfl
    rw [hcons]
    cases happlies : step.applies h.state with
    | false =>
      refine .skip (fun h' g hh => ?_) ((ih (position + 1) h).mono (fun _ _ => id) fun run h' g hlater => ?_)
      · rw [hh]
        exact happlies
      · obtain ⟨entries, hentries, hcourse⟩ := hlater
        exact ⟨entries, hentries, .skipping happlies hcourse⟩
    | true =>
      -- the attempts can come to one end only, from which the later steps go on
      obtain ⟨last, htried, hrun⟩ := exists_lastAttempt (step.chronicled position) (policy' step).maxRetries.toNat 0
        ((Nat.zero_add _).trans_lt (hretries step List.mem_cons_self)) h
      rw [Nat.zero_add, step.stateAfter_chronicled, step.reports_chronicled] at hrun
      rw [step.lastAttempt_chronicled] at htried
      let results := (List.range (last + 1)).map (step.reports h.state)
      let after : Chronicle σ ε π := ⟨step.stateAfter h.state (last + 1), h.entries ++ executions position results⟩
      have hgoingOn (hstops : step.stopsAt (step.reports h.state last) = false) {h' : Chronicle σ ε π}
          (hlater : CourseSince after policy' (position + 1) rest h') :
          CourseSince h policy' position (step :: rest) h' := by
        obtain ⟨entries, hentries, hcourse⟩ := hlater
        refine ⟨executions position results ++ entries, by rw [hentries, List.append_assoc], ?_⟩
        rw [List.filter_append, filter_isAttempt_executions]
        exact .goingOn happlies htried hstops hcourse
      refine .apply (T := fun tries h' _ => tries = ⟨last + 1, step.reports h.state last⟩ ∧ h' = after)
        (V := fun _ _ h' _ => CourseSince h policy' position (step :: rest) h') ?_ ?_ ?_ ?_ ?_ ?_
      · intro h' g hh
        rw [hh]
        exact happlies
      · intro h' g hh
        rw [hh, hpolicy, hrun]
        exact ⟨rfl, rfl⟩
      · rintro tries hok h' g ⟨rfl, rfl⟩
        have hstops : step.stopsAt (step.reports h.state last) = false := by
          rw [Step.stopsAt, hok, Bool.not_true, Bool.false_and]
        exact (ih (position + 1) after).mono (fun _ _ => id) (fun run h'' g => hgoingOn hstops) after g rfl
      · exact fun tries run h' g hok hrun => closing_courseSince hrun
      · rintro tries h' g hfailed hlasts ⟨rfl, rfl⟩
        have hstops : step.stopsAt (step.reports h.state last) = true := by
          rw [Step.stopsAt, hfailed, Bool.not_false, Bool.true_and]
          exact hlasts
        refine ⟨executions position results, rfl, ?_⟩
        rw [filter_isAttempt_executions]
        exact .stopped happlies htried hstops
      · rintro tries hfailed hpasses h' g ⟨rfl, rfl⟩
        have hstops : step.stopsAt (step.reports h.state last) = false := by
          rw [Step.stopsAt, hfailed, Bool.not_false, Bool.true_and]
          exact hpasses
        exact (ih (position + 1) after).mono (fun _ _ => id) (fun run h'' g => hgoingOn hstops) after g rfl

end Run

/-- The entries of a saga's run tell how the run is put together, and its attempts are those under the policies in
force. -/
theorem Saga.run_course (saga : Saga σ Id ε π)
    (hretries : ∀ step ∈ saga.steps, (saga.policyFor step).maxRetries.toNat < attemptCounterMax) (s : σ) :
    ∃ (run : Run ε) (h : Chronicle σ ε π), saga.chronicled.run.run.run ⟨s, []⟩ = pure (.ok run, h) ∧
      Tells 0 saga.steps h.entries run ∧ Course saga.policyFor 0 saga.steps s (h.entries.filter Entry.isAttempt) := by
  obtain ⟨run, h, hrun, htells⟩ := saga.run_tells hretries s
  obtain ⟨run', h', hrun', entries, hentries, hcourse⟩ :=
    (Run.passes_course (fun _ _ => rfl) saga.steps hretries 0 ⟨s, []⟩).run (Saga.retries_chronicled hretries) rfl
  cases hrun.symm.trans hrun'
  rw [List.nil_append] at hentries
  rw [← hentries] at hcourse
  exact ⟨run, h, hrun, htells, hcourse⟩

/-! ### Sagas put together call by call -/

namespace Assembly

/-- The policy in force for a step is the last override of its name, or else its own. Its attempts are calls in a row
up to the first result that is not a passing failure, or one more than the retries, and settle on the last result; the
attempts of a run are these, one step after another. Two assemblies of the same steps that agree on the last override
of each name have the same run. -/
theorem attempts_exact (a : Assembly σ Id ε π) :
    a.saga.steps = a.steps ∧
    (∀ step ∈ a.steps, a.saga.policyFor step = a.policyFor step ∧
      ((a.policyFor step).maxRetries.toNat < attemptCounterMax →
        ∀ s, ∃ last, step.LastAttempt (a.policyFor step).maxRetries.toNat s last ∧
          (Run.attempt step.execute (a.saga.policyFor step).maxRetries.toNat 0).run.run s =
            pure (.ok ⟨last + 1, step.reports s last⟩, step.stateAfter s (last + 1)))) ∧
    ((∀ step ∈ a.steps, (a.policyFor step).maxRetries.toNat < attemptCounterMax) →
      ∀ s, ∃ (run : Run ε) (h : Chronicle σ ε π), a.saga.run.run.run s = pure (.ok run, h.state) ∧
        a.saga.chronicled.run.run.run ⟨s, []⟩ = pure (.ok run, h) ∧ Tells 0 a.steps h.entries run ∧
        Course a.policyFor 0 a.steps s (h.entries.filter Entry.isAttempt)) ∧
    ∀ b : Assembly σ Id ε π, b.steps = a.steps →
      (∀ step ∈ a.steps, Overrides.last? b.overrides step.name = Overrides.last? a.overrides step.name) →
      b.saga.run = a.saga.run := by
  have hpolicy : a.saga.policyFor = a.policyFor := funext a.policyFor_saga
  refine ⟨a.steps_saga, fun step hstep => ⟨a.policyFor_saga step, fun hretries s => ?_⟩, fun hretries s => ?_,
    fun b hsteps hlast => ?_⟩
  · obtain ⟨last, hlast, hrun⟩ := Run.exists_lastAttempt step _ 0 ((Nat.zero_add _).trans_lt hretries) s
    rw [Nat.zero_add] at hrun
    rw [hpolicy]
    exact ⟨last, hlast, hrun⟩
  · rw [← a.steps_saga, ← hpolicy] at hretries ⊢
    obtain ⟨run, h, hrun, htells, hcourse⟩ := a.saga.run_course hretries s
    exact ⟨run, h, a.saga.run_of_chronicled hrun, hrun, htells, hcourse⟩
  · refine run_congr hsteps fun step hstep => ?_
    rw [policyFor, policyFor, hlast step hstep]

def payment : Step ℕ Id String Unit where
  name := "pay"
  execute := fun n => (if n < 3 then .transient "busy" none else .success "paid" none, n + 1)

def notice : Step ℕ Id String Unit where
  name := "notify"
  execute := fun n => (.transient "offline" none, n + 1)
  mandatory := false
  retry := .fixed 7 0

/-- Two payments of one name, and overrides before, between and after them. -/
def checkout : Assembly ℕ Id String Unit where
  early := [("notify", .fixed 5 0), ("pay", .once)]
  first := payment
  later := [.override "pay" (.fixed 1 0), .step notice, .override "notify" (.fixed 2 0), .step payment,
    .override "pay" (.fixed 9 0)]

/-- The same steps, with the overrides that count given beforehand. -/
def prepared : Assembly ℕ Id String Unit where
  early := [("pay", .fixed 9 0), ("notify", .fixed 2 0)]
  first := payment
  later := [.step notice, .step payment]

theorem attempts_exact_checkout :
    (∀ step ∈ checkout.steps, (checkout.policyFor step).maxRetries.toNat < attemptCounterMax) ∧
    (payment.LastAttempt 9 0 3 ∧
      (Run.attempt payment.execute 9 0).run.run 0 = pure (.ok ⟨4, .success "paid" none⟩, 4)) ∧
    (∃ (run : Run String) (h : Chronicle ℕ String Unit), checkout.saga.run.run.run 0 = pure (.ok run, h.state) ∧
      Course checkout.policyFor 0 checkout.steps 0 (h.entries.filter Entry.isAttempt) ∧
      run.audit.records.map (fun r => (r.name, r.attempts)) = [("pay", 4), ("notify", 3), ("pay", 1)]) ∧
    prepared.saga.run = checkout.saga.run := by
  have hretries : ∀ step ∈ checkout.steps, (checkout.policyFor step).maxRetries.toNat < attemptCounterMax := by decide
  obtain ⟨-, hpolicy, hrun, hcongr⟩ := checkout.attempts_exact
  refine ⟨hretries, ?_, ?_, hcongr prepared rfl (by decide)⟩
  · obtain ⟨last, hlast, hattempt⟩ := (hpolicy payment List.mem_cons_self).2 (hretries _ List.mem_cons_self) 0
    have hpaid : (Run.attempt payment.execute 9 0).run.run 0 = pure (.ok ⟨4, .success "paid" none⟩, 4) := rfl
    have hfour : some (last + 1) = some 4 :=
      congrArg (fun r : Id _ => r.run.1.toOption.map Tries.attempts) (hattempt.symm.trans hpaid)
    obtain rfl : last = 3 := Nat.succ.inj (Option.some.inj hfour)
    exact ⟨hlast, hpaid⟩
  · obtain ⟨run, h, hrun, -, -, hcourse⟩ := hrun hretries 0
    refine ⟨run, h, hrun, hcourse, ?_⟩
    generalize h.state = final at hrun
    cases hrun
    rfl

end Assembly

end Missions
