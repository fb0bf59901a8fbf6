import Missions.Proofs.Saga.Counting

/-! A limit of the retries says where attempts that keep failing are given up, and nothing else: a run in which no
step ran out of retries is the same run under any wider limits. -/

namespace Missions

variable {σ ε π : Type}

def Saga.withOverrides (saga : Saga σ Id ε π) (overrides : Overrides) : Saga σ Id ε π := { saga with overrides }

/-- The step at a position ran out of retries: the last of its attempts is a failure that passes. -/
def RanOut (position : ℕ) (entries : List (Entry ε π)) : Prop :=
  ∃ message cause, (executionsAt position entries).getLast? = some (.transient message cause)

theorem executionsAt_filter_isAttempt (position : ℕ) (entries : List (Entry ε π)) :
    executionsAt position (entries.filter Entry.isAttempt) = executionsAt position entries := by
  rw [executionsAt, executionsAt, List.filterMap_filter]
  congr 1
  funext e
  obtain ⟨call, result⟩ := e
  cases call <;> rfl

theorem ranOut_filter_isAttempt (position : ℕ) (entries : List (Entry ε π)) :
    RanOut position (entries.filter Entry.isAttempt) ↔ RanOut position entries := by
  rw [RanOut, executionsAt_filter_isAttempt, RanOut]

theorem StepResult.isRetryable_iff {result : StepResult ε π} :
    result.isRetryable = true ↔ ∃ message cause, result = .transient message cause := by
  cases result with
  | transient message cause => exact ⟨fun _ => ⟨message, cause, rfl⟩, fun _ => rfl⟩
  | success | rejected => exact ⟨nofun, nofun⟩

/-! ### Attempts under two limits -/

namespace Step

variable {step : Step σ Id ε π} {retries retries' last : ℕ} {s : σ}

theorem LastAttempt.settlesAt (h : step.LastAttempt retries s last) : step.SettlesAt retries s last := by
  obtain ⟨last', hlast'⟩ := step.exists_settlesAt retries s
  obtain rfl : last = last' := Nat.succ.inj (Nat.cast_injective (R := ℕ∞) (h.trans hlast'.lastAttempt.symm))
  exact hlast'

theorem SettlesAt.eq_of_isRetryable (h : step.SettlesAt retries s last)
    (hretry : (step.reports s last).isRetryable = true) : last = retries :=
  h.final.resolve_left (by rw [hretry]; exact Bool.noConfusion)

theorem SettlesAt.widened (h : step.SettlesAt retries s last) (hwider : retries ≤ retries')
    (hspared : (step.reports s last).isRetryable = true → retries' = retries) : step.SettlesAt retries' s last where
  allowed := h.allowed.trans hwider
  passing := h.passing
  final := by
    cases hretry : (step.reports s last).isRetryable with
    | false => exact .inl rfl
    | true => exact .inr ((h.eq_of_isRetryable hretry).trans (hspared hretry).symm)

end Step

theorem Run.run_attempt_widened {step : Step σ Id ε π} {retries retries' last : ℕ} {s : σ}
    (htried : step.LastAttempt retries s last) (hwider : retries ≤ retries') (hroom : retries' < attemptCounterMax)
    (hspared : (step.reports s last).isRetryable = true → retries' = retries) :
    (attempt step.execute retries' 0).run.run s =
        pure (.ok ⟨last + 1, step.reports s last⟩, step.stateAfter s (last + 1)) ∧
      (attempt step.execute retries 0).run.run s =
        pure (.ok ⟨last + 1, step.reports s last⟩, step.stateAfter s (last + 1)) := by
  have hsettles := htried.settlesAt
  have hcounted : 0 + last < attemptCounterMax := by
    have hallowed := hsettles.allowed
    omega
  have hrun := run_attempt_settlesAt hsettles hcounted
  have hrun' := run_attempt_settlesAt (hsettles.widened hwider hspared) hcounted
  rw [Nat.zero_add] at hrun hrun'
  exact ⟨hrun', hrun⟩

theorem Run.run_visit_widened {policy policy' : Step σ Id ε π → RetryPolicy} {step : Step σ Id ε π}
    {rest : List (Step σ Id ε π)} {last : ℕ} {s : σ} (applies : step.applies s = true)
    (tried : step.LastAttempt (policy step).maxRetries.toNat s last)
    (hwider : (policy step).maxRetries ≤ (policy' step).maxRetries)
    (hroom : (policy' step).maxRetries.toNat < attemptCounterMax)
    (hspared : (step.reports s last).isRetryable = true → (policy' step).maxRetries = (policy step).maxRetries)
    (hlater : step.stopsAt (step.reports s last) = false →
      (visit policy' rest).run.run (step.stateAfter s (last + 1)) =
        (visit policy rest).run.run (step.stateAfter s (last + 1))) :
    (visit policy' (step :: rest)).run.run s = (visit policy (step :: rest)).run.run s := by
  obtain ⟨hrun', hrun⟩ := run_attempt_widened tried (UInt32.le_iff_toNat_le.1 hwider) hroom fun hretry =>
    congrArg UInt32.toNat (hspared hretry)
  rw [run_visit_attempt policy' rest applies, run_visit_attempt policy rest applies, hrun', hrun, pure_bind, pure_bind,
    resume_ok, resume_ok]
  cases hstops : step.stopsAt (step.reports s last) with
  | true =>
    -- what comes after the step is not visited
    obtain ⟨hfailed, hlasts⟩ := Bool.and_eq_true_iff.1 hstops
    rw [Bool.not_eq_true'] at hfailed
    rw [hfailed, hlasts]
    rfl
  | false => rw [hlater hstops]

/-- The step at a position ran out of retries if the last of its attempts passes, whatever the later steps report. -/
theorem ranOut_iff {step : Step σ Id ε π} {position last : ℕ} {s : σ} {entries : List (Entry ε π)}
    (hsilent : executionsAt position entries = []) :
    RanOut position (executions position ((List.range (last + 1)).map (step.reports s)) ++ entries) ↔
      (step.reports s last).isRetryable = true := by
  rw [RanOut, executionsAt_append, executionsAt_executions, hsilent, List.append_nil, List.range_succ,
    List.map_append, List.map_singleton, List.getLast?_concat, StepResult.isRetryable_iff]
  simp only [Option.some.injEq]

theorem ranOut_iff_last {step : Step σ Id ε π} {position last : ℕ} {s : σ} :
    RanOut position (executions position ((List.range (last + 1)).map (step.reports s))) ↔
      (step.reports s last).isRetryable = true := by
  rw [← List.append_nil (executions position _)]
  exact ranOut_iff rfl

theorem ranOut_later {rest : List (Step σ Id ε π)} {position : ℕ} {results : List (StepResult ε π)}
    {entries : List (Entry ε π)} {row : Step σ Id ε π × ℕ} (hrow : row ∈ rest.zipIdx (position + 1)) :
    RanOut row.2 (executions position results ++ entries) ↔ RanOut row.2 entries := by
  rw [RanOut, executionsAt_executions_append (Nat.ne_of_lt (List.le_snd_of_mem_zipIdx hrow)), RanOut]

/-! ### Visits under two limits -/

namespace Course

variable {policy policy' : Step σ Id ε π → RetryPolicy} {position : ℕ} {steps : List (Step σ Id ε π)} {s : σ}
variable {entries : List (Entry ε π)}

theorem silent_before (h : Course policy position steps s entries) {earlier : ℕ} (hearlier : earlier < position) :
    executionsAt earlier entries = [] := by
  induction h with
  | ended => rfl
  | skipping applies later ih => exact ih (by omega)
  | stopped applies tried stops => exact executionsAt_executions_of_ne hearlier.ne'
  | goingOn applies tried stops later ih =>
    rw [executionsAt_executions_append hearlier.ne']
    exact ih (by omega)

theorem silent_here (h : Course policy (position + 1) steps s entries) : executionsAt position entries = [] :=
  h.silent_before position.lt_succ_self

/-- A visit is the same under wider limits if every step that ran out of retries keeps its limit. -/
theorem visit_widened (h : Course policy position steps s entries)
    (hwider : ∀ step ∈ steps, (policy step).maxRetries ≤ (policy' step).maxRetries)
    (hretries : ∀ step ∈ steps, (policy' step).maxRetries.toNat < attemptCounterMax)
    (hspared : ∀ row ∈ steps.zipIdx position, RanOut row.2 entries →
      (policy' row.1).maxRetries = (policy row.1).maxRetries) :
    (Run.visit policy' steps).run.run s = (Run.visit policy steps).run.run s := by
  induction h with
  | ended => rfl
  | @skipping position step rest s entries applies later ih =>
    rw [List.zipIdx_cons, List.forall_mem_cons] at hspared
    rw [List.forall_mem_cons] at hwider hretries
    rw [Run.run_visit_skip policy' rest applies, Run.run_visit_skip policy rest applies,
      ih hwider.2 hretries.2 hspared.2]
  | @stopped position step rest s last applies tried stops =>
    rw [List.zipIdx_cons, List.forall_mem_cons, ranOut_iff_last] at hspared
    rw [List.forall_mem_cons] at hwider hretries
    exact Run.run_visit_widened applies tried hwider.1 hretries.1 hspared.1 fun hgoesOn =>
      absurd stops (Bool.eq_false_iff.1 hgoesOn)
  | @goingOn position step rest s last entries applies tried stops later ih =>
    rw [List.zipIdx_cons, List.forall_mem_cons, ranOut_iff later.silent_here] at hspared
    rw [List.forall_mem_cons] at hwider hretries
    exact Run.run_visit_widened applies tried hwider.1 hretries.1 hspared.1 fun _ =>
      ih hwider.2 hretries.2 fun row hrow hout => hspared.2 row hrow ((ranOut_later hrow).2 hout)

theorem length_executionsAt (h : Course policy position steps s entries) {row : Step σ Id ε π × ℕ}
    (hrow : row ∈ steps.zipIdx position) (hout : RanOut row.2 entries) :
    (executionsAt row.2 entries).length = (policy row.1).maxRetries.toNat + 1 := by
  induction h with
  | ended => cases hrow
  | @skipping position step rest s entries applies later ih =>
    rw [List.zipIdx_cons, List.mem_cons] at hrow
    rcases hrow with rfl | hrow
    · obtain ⟨message, cause, hlast⟩ := hout
      rw [later.silent_here] at hlast
      cases hlast
    · exact ih hrow hout
  | @stopped position step rest s last applies tried stops =>
    rw [List.zipIdx_cons, List.mem_cons] at hrow
    rcases hrow with rfl | hrow
    · rw [executionsAt_executions, List.length_map, List.length_range,
        tried.settlesAt.eq_of_isRetryable (ranOut_iff_last.1 hout)]
    · obtain ⟨message, cause, hlast⟩ := hout
      rw [executionsAt_executions_of_ne (Nat.ne_of_lt (List.le_snd_of_mem_zipIdx hrow))] at hlast
      cases hlast
  | @goingOn position step rest s last entries applies tried stops later ih =>
    rw [List.zipIdx_cons, List.mem_cons] at hrow
    rcases hrow with rfl | hrow
    · rw [executionsAt_append, executionsAt_executions, later.silent_here, List.append_nil, List.length_map,
        List.length_range, tried.settlesAt.eq_of_isRetryable ((ranOut_iff later.silent_here).1 hout)]
    · rw [executionsAt_executions_append (Nat.ne_of_lt (List.le_snd_of_mem_zipIdx hrow))]
      exact ih hrow ((ranOut_later hrow).1 hout)

theorem limit_eq {s' : σ} (h : Course policy position steps s entries) (h' : Course policy' position steps s' entries)
    {row : Step σ Id ε π × ℕ} (hrow : row ∈ steps.zipIdx position) (hout : RanOut row.2 entries) :
    (policy' row.1).maxRetries = (policy row.1).maxRetries := by
  have hlength := h.length_executionsAt hrow hout
  have hlength' := h'.length_executionsAt hrow hout
  exact UInt32.toNat.inj (by omega)

end Course

/-! ### Visits written down -/

theorem mem_zipIdx_chronicledFrom {steps : List (Step σ Id ε π)} {position : ℕ}
    {row : Step (Chronicle σ ε π) Id ε π × ℕ} (h : row ∈ (Step.chronicledFrom steps position).zipIdx position) :
    ∃ step, row.1 = step.chronicled row.2 ∧ (step, row.2) ∈ steps.zipIdx position := by
  induction steps generalizing position with
  | nil => cases h
  | cons step rest ih =>
    have hcons : Step.chronicledFrom (step :: rest) position =
        step.chronicled position :: Step.chronicledFrom rest (position + 1) := rfl
    rw [hcons, List.zipIdx_cons, List.mem_cons] at h
    rcases h with rfl | h
    · exact ⟨step, rfl, List.mem_cons_self⟩
    · obtain ⟨step', hstep', hmem⟩ := ih h
      exact ⟨step', hstep', List.mem_cons_of_mem _ hmem⟩

theorem Course.chronicled {policy : Step (Chronicle σ ε π) Id ε π → RetryPolicy}
    {policy' : Step σ Id ε π → RetryPolicy}
    (hpolicy : ∀ step position, policy (step.chronicled position) = policy' step) {position : ℕ}
    {steps : List (Step σ Id ε π)} {s : σ} {entries : List (Entry ε π)}
    (hcourse : Course policy' position steps s entries)
    (h : Chronicle σ ε π) (hs : h.state = s) :
    Course policy position (Step.chronicledFrom steps position) h entries := by
  induction hcourse generalizing h with
  | ended => exact .ended
  | @skipping position step rest s entries applies later ih =>
    subst hs
    exact .skipping applies (ih h rfl)
  | @stopped position step rest s last applies tried stops =>
    subst hs
    have hreports := step.reports_chronicled position h
    rw [← step.lastAttempt_chronicled position h, ← hpolicy step position] at tried
    rw [← hreports] at stops ⊢
    exact .stopped applies tried stops
  | @goingOn position step rest s last entries applies tried stops later ih =>
    subst hs
    have hreports := step.reports_chronicled position h
    rw [← step.lastAttempt_chronicled position h, ← hpolicy step position] at tried
    rw [← hreports] at stops ⊢
    exact .goingOn applies tried stops (ih _ (by rw [step.stateAfter_chronicled position h]))

namespace Saga

variable {saga : Saga σ Id ε π} {overrides : Overrides}

theorem run_chronicled_widened
    (hwider : ∀ step ∈ saga.steps,
      (saga.policyFor step).maxRetries ≤ ((saga.withOverrides overrides).policyFor step).maxRetries)
    (hretries : ∀ step ∈ saga.steps,
      ((saga.withOverrides overrides).policyFor step).maxRetries.toNat < attemptCounterMax)
    {s : σ} {entries : List (Entry ε π)} (hcourse : Course saga.policyFor 0 saga.steps s entries)
    (hspared : ∀ position step, saga.steps[position]? = some step → RanOut position entries →
      ((saga.withOverrides overrides).policyFor step).maxRetries = (saga.policyFor step).maxRetries) :
    (saga.withOverrides overrides).chronicled.run.run.run ⟨s, []⟩ = saga.chronicled.run.run.run ⟨s, []⟩ := by
  have hwritten : Course saga.chronicled.policyFor 0 saga.chronicled.steps ⟨s, []⟩ entries :=
    hcourse.chronicled (fun _ _ => rfl) ⟨s, []⟩ rfl
  refine hwritten.visit_widened ?_ (@retries_chronicled σ ε π (saga.withOverrides overrides) hretries) ?_
  · intro step' hstep'
    obtain ⟨⟨step, position⟩, hmem, rfl⟩ := List.mem_map.1 hstep'
    exact hwider step (List.fst_mem_of_mem_zipIdx hmem)
  · intro row hrow hout
    obtain ⟨step, hstep, hmem⟩ := mem_zipIdx_chronicledFrom hrow
    rw [hstep]
    exact hspared row.2 step (List.mem_zipIdx_iff_getElem?.1 hmem) hout

variable (saga overrides)

/-- Under wider limits a run makes the same calls and comes to the same state, result and log, if no step ran out of
retries. In general it does exactly if the steps that ran out of retries keep their limits. -/
theorem run_widened_iff
    (hwider : ∀ step ∈ saga.steps,
      (saga.policyFor step).maxRetries ≤ ((saga.withOverrides overrides).policyFor step).maxRetries)
    (hretries : ∀ step ∈ saga.steps,
      ((saga.withOverrides overrides).policyFor step).maxRetries.toNat < attemptCounterMax) (s : σ) :
    ∃ (run : Run ε) (h : Chronicle σ ε π), saga.chronicled.run.run.run ⟨s, []⟩ = pure (.ok run, h) ∧
      saga.run.run.run s = pure (.ok run, h.state) ∧
      ((∀ position, ¬ RanOut position h.entries) →
        (saga.withOverrides overrides).chronicled.run.run.run ⟨s, []⟩ = pure (.ok run, h) ∧
        (saga.withOverrides overrides).run.run.run s = pure (.ok run, h.state)) ∧
      ((saga.withOverrides overrides).chronicled.run.run.run ⟨s, []⟩ = pure (.ok run, h) ↔
        ∀ position step, saga.steps[position]? = some step → RanOut position h.entries →
          ((saga.withOverrides overrides).policyFor step).maxRetries = (saga.policyFor step).maxRetries) := by
  have hcounted : ∀ step ∈ saga.steps, (saga.policyFor step).maxRetries.toNat < attemptCounterMax := fun step hstep =>
    (UInt32.le_iff_toNat_le.1 (hwider step hstep)).trans_lt (hretries step hstep)
  obtain ⟨run, h, hrun, -, hcourse⟩ := saga.run_course hcounted s
  have hspared (hlimits : ∀ position step, saga.steps[position]? = some step → RanOut position h.entries →
      ((saga.withOverrides overrides).policyFor step).maxRetries = (saga.policyFor step).maxRetries) :
      (saga.withOverrides overrides).chronicled.run.run.run ⟨s, []⟩ = pure (.ok run, h) := by
    rw [← hrun]
    exact run_chronicled_widened hwider hretries hcourse fun position step hstep hout =>
      hlimits position step hstep ((ranOut_filter_isAttempt position h.entries).1 hout)
  refine ⟨run, h, hrun, saga.run_of_chronicled hrun, fun huncut => ?_, fun hwidened position step hstep hout => ?_,
    hspared⟩
  · have hwidened := hspared fun position step hstep hout => absurd hout (huncut position)
    exact ⟨hwidened, (saga.withOverrides overrides).run_of_chronicled hwidened⟩
  · obtain ⟨run', h', hrun', -, hcourse'⟩ := (saga.withOverrides overrides).run_course hretries s
    cases hwidened.symm.trans hrun'
    have hposition : (step, position) ∈ saga.steps.zipIdx := List.mem_zipIdx_iff_getElem?.2 hstep
    exact hcourse.limit_eq hcourse' hposition ((ranOut_filter_isAttempt position h.entries).2 hout)

/-- A flight that is booked at the third call, a hotel that cannot be given back, and a payment that is refused once
it gets through. -/
def trip : Saga ℕ Id String Unit where
  steps :=
    [{ name := "flight", retry := .fixed 2 0
       execute := fun n => (if n < 2 then .transient "busy" none else .success "booked" none, n + 1) },
      { name := "hotel", execute := fun n => (.success "booked" none, n + 1)
        compensate := fun n => (.transient "locked" none, n + 1) },
      { name := "pay", retry := .fixed 1 0
        execute := fun n => (if n < 5 then .transient "offline" none else .rejected "refused" "card expired", n + 1) }]
  overrides := ∅
  steps_ne_nil := by simp

/-- More retries for the steps of the trip that were tried again. -/
def patience : Overrides := (Table.insert ∅ "flight" (.fixed 9 0)).insert "pay" (.fixed 7 0)

theorem run_widened_iff_trip :
    ∃ run : Run String, trip.run.run.run 0 = pure (.ok run, 7) ∧
      (trip.withOverrides patience).run.run.run 0 = pure (.ok run, 7) ∧
      run.audit.records.map (fun r => (r.name, r.status, r.attempts)) =
        [("flight", .compensated, 3), ("hotel", .compensationFailed, 1), ("pay", .failed, 2)] := by
  have hwider : ∀ step ∈ trip.steps,
      (trip.policyFor step).maxRetries ≤ ((trip.withOverrides patience).policyFor step).maxRetries := by decide
  have hretries : ∀ step ∈ trip.steps,
      ((trip.withOverrides patience).policyFor step).maxRetries.toNat < attemptCounterMax := by decide
  have htrip : ∃ run : Run String, trip.chronicled.run.run.run ⟨0, []⟩ = pure (.ok run, ⟨7,
        [⟨.execute 0, .transient "busy" none⟩, ⟨.execute 0, .transient "busy" none⟩,
          ⟨.execute 0, .success "booked" none⟩, ⟨.execute 1, .success "booked" none⟩,
          ⟨.execute 2, .transient "offline" none⟩, ⟨.execute 2, .rejected "refused" "card expired"⟩,
          ⟨.compensate 1, .transient "locked" none⟩,
          ⟨.compensate 0, .success "flight has nothing to compensate" none⟩]⟩) ∧
      run.audit.records.map (fun r => (r.name, r.status, r.attempts)) =
        [("flight", .compensated, 3), ("hotel", .compensationFailed, 1), ("pay", .failed, 2)] := ⟨_, rfl, rfl⟩
  obtain ⟨run, hwritten, haudit⟩ := htrip
  obtain ⟨run', h, hrun, hplain, huncut, -⟩ := run_widened_iff trip patience hwider hretries 0
  cases hrun.symm.trans hwritten
  refine ⟨run, hplain, (huncut ?_).2, haudit⟩
  rintro position ⟨message, cause, hlast⟩
  rcases position with _ | _ | _ | position <;> simp [executionsAt] at hlast

end Saga

end Missions
