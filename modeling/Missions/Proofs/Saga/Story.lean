import Missions.Proofs.Saga.Chronicle

/-! The audit log, the report or the error of a run, and the calls of its steps, side by side. The log stands next to
the steps position by position, so that steps of one name stay apart. -/

namespace Missions

variable {σ ε π : Type}

/-- What the attempts of the step at a position reported, the earliest first. -/
def executionsAt (position : Nat) (entries : List (Entry ε π)) : List (StepResult ε π) :=
  entries.filterMap fun e => if e.call = .execute position then some e.result else none

def undoingsAt (position : Nat) (entries : List (Entry ε π)) : List (StepResult ε π) :=
  entries.filterMap fun e => if e.call = .compensate position then some e.result else none

/-! ### Specification -/

/-- A record, next to its step and to what the step had reported. -/
structure Recorded (step : Step σ Id ε π) (executions undoings : List (StepResult ε π)) (record : StepRecord) :
    Prop where
  name : record.name = step.name
  finished : record.isFinished = true
  attempts : record.attempts = executions.length
  skipped : record.status = .skipped ↔ record.attempts = 0
  message : record.message.isSome = true ↔ record.status ≠ .skipped
  latest : record.message = (executions ++ undoings).getLast?.map (·.message)
  compensation : record.compensation = if executions.any (·.isSuccess) then some step.undoing else none

/-- The log of a run that came to its end, next to the report. -/
structure Completed (steps : List (Step σ Id ε π)) (entries : List (Entry ε π)) (report : Report ε) (audit : AuditLog) :
    Prop where
  all : audit.records.length = steps.length
  executed : audit.stepsWithStatus .executed = report.executed
  skipped : audit.stepsWithStatus .skipped = report.skipped
  optionalFailures : (audit.records.filter (·.status == .optionalFailed)).map (fun r => (r.name, r.message)) =
    report.optionalFailures.map fun f => (f.step, some f.message)
  others : ∀ record ∈ audit.records,
    record.status ≠ .failed ∧ record.status ≠ .compensated ∧ record.status ≠ .compensationFailed
  noUndoing : ∀ position, undoingsAt position entries = []

/-- The log of a run that was aborted, next to the error. -/
structure Unwound (entries : List (Entry ε π)) (aborted : Aborted ε) (audit : AuditLog) : Prop where
  /-- The last record, and no other, is that of the step that failed. -/
  failed : ∃ earlier record, audit.records = earlier ++ [record] ∧ record.status = .failed ∧
    record.name = aborted.step ∧ record.message = some aborted.message ∧ ∀ record ∈ earlier, record.status ≠ .failed
  noneExecuted : ∀ record ∈ audit.records, record.status ≠ .executed
  /-- A step that had succeeded was compensated once, and its record tells how that went. -/
  undone : ∀ position record, audit.records[position]? = some record →
    (executionsAt position entries).any (·.isSuccess) = true → ∃ undo, undoingsAt position entries = [undo] ∧
      record.message = some undo.message ∧
      record.status = if undo.isSuccess then .compensated else .compensationFailed
  onlyUndone : ∀ position, (executionsAt position entries).any (·.isSuccess) = false →
    undoingsAt position entries = []
  failures : aborted.undoFailures.map (fun f => (f.step, some f.description, some f.message)) =
    ((audit.records.filter (·.status == .compensationFailed)).map
      fun r => (r.name, r.compensation, r.message)).reverse
  fully : (∃ step message cause, aborted = .undone step message cause) ↔
    ∀ record ∈ audit.records, record.status ≠ .compensationFailed

/-- The log and the result of a run tell what its calls tell. -/
structure Story (steps : List (Step σ Id ε π)) (entries : List (Entry ε π)) (run : Run ε) : Prop where
  /-- One record for each step that was visited, in the order of the steps. -/
  visited : run.audit.records.map (·.name) <+: steps.map (·.name)
  recorded : ∀ (position : Nat) step record, steps[position]? = some step →
    run.audit.records[position]? = some record →
    Recorded step (executionsAt position entries) (undoingsAt position entries) record
  unvisited : ∀ position, run.audit.records.length ≤ position →
    executionsAt position entries = [] ∧ undoingsAt position entries = []
  completed : ∀ report, run.result = .ok report → Completed steps entries report run.audit
  aborted : ∀ aborted, run.result = .error aborted → Unwound entries aborted run.audit

/-! ### Entries by position -/

section

variable {position position' : Nat} {entries entries' : List (Entry ε π)} {results : List (StepResult ε π)}

@[simp] theorem executionsAt_append :
    executionsAt position (entries ++ entries') = executionsAt position entries ++ executionsAt position entries' :=
  List.filterMap_append

@[simp] theorem undoingsAt_append :
    undoingsAt position (entries ++ entries') = undoingsAt position entries ++ undoingsAt position entries' :=
  List.filterMap_append

@[simp] theorem executionsAt_executions : executionsAt position (executions position results) = results := by
  simp [executionsAt, executions]

theorem executionsAt_executions_of_ne (h : position' ≠ position) :
    executionsAt position (executions position' results) = [] := by
  simp [executionsAt, executions, h]

@[simp] theorem undoingsAt_executions : undoingsAt position (executions position' results) = [] := by
  simp [undoingsAt, executions]

@[simp] theorem executionsAt_compensate {undo : StepResult ε π} :
    executionsAt position [⟨.compensate position', undo⟩] = [] := by
  simp [executionsAt]

@[simp] theorem undoingsAt_compensate {undo : StepResult ε π} :
    undoingsAt position [⟨.compensate position, undo⟩] = [undo] := by
  simp [undoingsAt]

theorem undoingsAt_compensate_of_ne {undo : StepResult ε π} (h : position' ≠ position) :
    undoingsAt position [⟨.compensate position', undo⟩] = [] := by
  simp [undoingsAt, h]

theorem executionsAt_executions_append (h : position' ≠ position) :
    executionsAt position (executions position' results ++ entries) = executionsAt position entries := by
  rw [executionsAt_append, executionsAt_executions_of_ne h, List.nil_append]

theorem undoingsAt_executions_append :
    undoingsAt position (executions position' results ++ entries) = undoingsAt position entries := by
  rw [undoingsAt_append, undoingsAt_executions, List.nil_append]

theorem executionsAt_append_compensate {undo : StepResult ε π} :
    executionsAt position (entries ++ [⟨.compensate position', undo⟩]) = executionsAt position entries := by
  rw [executionsAt_append, executionsAt_compensate, List.append_nil]

theorem undoingsAt_append_compensate {undo : StepResult ε π} (h : position' ≠ position) :
    undoingsAt position (entries ++ [⟨.compensate position', undo⟩]) = undoingsAt position entries := by
  rw [undoingsAt_append, undoingsAt_compensate_of_ne h, List.append_nil]

end

/-! ### Records accounted for -/

inductive Account (step : Step σ Id ε π) : List (StepResult ε π) → List (StepResult ε π) → StepRecord → Prop
  | skipped : Account step [] [] (.skipped step.name)
  | failed {results : List (StepResult ε π)} {tries : Tries ε π} (tried : Tried results tries)
      (failed : tries.result.isSuccess = false) (aborts : Bool) :
      Account step results [] (.failed step.name tries.attempts tries.result.message aborts)
  | executed {results : List (StepResult ε π)} {tries : Tries ε π} (tried : Tried results tries)
      (succeeded : tries.result.isSuccess = true) :
      Account step results [] (.executed step.name tries.attempts tries.result.message step.undoing)
  | undone {results : List (StepResult ε π)} {tries : Tries ε π} (tried : Tried results tries)
      (succeeded : tries.result.isSuccess = true) (undo : StepResult ε π) :
      Account step results [undo]
        ((StepRecord.executed step.name tries.attempts tries.result.message step.undoing).compensated undo.isSuccess
          undo.message)

namespace Tried

variable {results : List (StepResult ε π)} {tries : Tries ε π}

theorem getLast? (h : Tried results tries) : results.getLast? = some tries.result := by
  obtain ⟨-, earlier, rfl, -⟩ := h
  simp

theorem attempts_ne_zero (h : Tried results tries) : tries.attempts ≠ 0 := by
  obtain ⟨hattempts, earlier, rfl, -⟩ := h
  simp [hattempts]

theorem any_isSuccess (h : Tried results tries) : results.any (·.isSuccess) = tries.result.isSuccess := by
  obtain ⟨-, earlier, rfl, hearlier⟩ := h
  have hnone : earlier.any (·.isSuccess) = false := by
    rw [List.any_eq_false]
    intro result hresult
    have hretry := hearlier result hresult
    cases result with
    | success => cases hretry
    | transient => simp [StepResult.isSuccess]
    | rejected => cases hretry
  simp [List.any_append, hnone]

end Tried

theorem Account.recorded {step : Step σ Id ε π} {results undoings : List (StepResult ε π)} {record : StepRecord}
    (h : Account step results undoings record) : Recorded step results undoings record := by
  cases h with
  | skipped => constructor <;> simp [StepRecord.skipped, StepRecord.opened, StepRecord.isFinished]
  | failed tried failed aborts =>
    have hsome := tried.attempts_ne_zero
    constructor
    · rfl
    · rfl
    · exact tried.1
    · cases aborts <;> simp [StepRecord.failed, StepRecord.settle, StepRecord.opened, hsome]
    · cases aborts <;> simp [StepRecord.failed, StepRecord.settle, StepRecord.opened]
    · simp [StepRecord.failed, StepRecord.settle, StepRecord.opened, tried.getLast?]
    · simp [StepRecord.failed, StepRecord.settle, StepRecord.opened, tried.any_isSuccess, failed]
  | executed tried succeeded =>
    have hsome := tried.attempts_ne_zero
    constructor
    · rfl
    · rfl
    · exact tried.1
    · simp [StepRecord.executed, StepRecord.settle, StepRecord.opened, hsome]
    · simp [StepRecord.executed, StepRecord.settle, StepRecord.opened]
    · simp [StepRecord.executed, StepRecord.settle, StepRecord.opened, tried.getLast?]
    · simp [StepRecord.executed, StepRecord.settle, StepRecord.opened, tried.any_isSuccess, succeeded]
  | undone tried succeeded undo =>
    have hsome := tried.attempts_ne_zero
    constructor
    · rfl
    · rfl
    · exact tried.1
    · cases undo.isSuccess <;>
        simp [StepRecord.compensated, StepRecord.executed, StepRecord.settle, StepRecord.opened, hsome]
    · cases undo.isSuccess <;> simp [StepRecord.compensated, StepRecord.executed, StepRecord.settle, StepRecord.opened]
    · simp [StepRecord.compensated, StepRecord.settle]
    · simp [StepRecord.compensated, StepRecord.executed, StepRecord.settle, StepRecord.opened, tried.any_isSuccess,
        succeeded]

/-! ### What the parts of a run tell -/

namespace Tells

variable {position : Nat} {steps : List (Step σ Id ε π)} {entries : List (Entry ε π)} {run : Run ε}

theorem silent_before (h : Tells position steps entries run) {earlier : Nat} (hearlier : earlier < position) :
    executionsAt earlier entries = [] ∧ undoingsAt earlier entries = [] := by
  induction h with
  | ended => exact ⟨rfl, rfl⟩
  | skipping later ih => exact ih (by omega)
  | passingOver tried failed later ih | executed tried succeeded later ih =>
    rw [executionsAt_executions_append (Nat.ne_of_gt hearlier), undoingsAt_executions_append]
    exact ih (by omega)
  | stopped tried failed => exact ⟨executionsAt_executions_of_ne (Nat.ne_of_gt hearlier), undoingsAt_executions⟩
  | undone tried succeeded later ih =>
    have hne := Nat.ne_of_gt hearlier
    rw [executionsAt_append_compensate, undoingsAt_append_compensate hne, executionsAt_executions_append hne,
      undoingsAt_executions_append]
    exact ih (by omega)

theorem silent_here {rest : List (Step σ Id ε π)} (h : Tells (position + 1) rest entries run) :
    executionsAt position entries = [] ∧ undoingsAt position entries = [] :=
  h.silent_before (Nat.lt_succ_self position)

theorem names (h : Tells position steps entries run) :
    run.audit.records.map (·.name) <+: steps.map (·.name) := by
  induction h with
  | ended => exact List.nil_prefix
  | skipping later ih => exact List.cons_prefix_cons.2 ⟨rfl, ih⟩
  | passingOver tried failed later ih => exact List.cons_prefix_cons.2 ⟨rfl, ih⟩
  | stopped tried failed => exact List.cons_prefix_cons.2 ⟨rfl, List.nil_prefix⟩
  | executed tried succeeded later ih => exact List.cons_prefix_cons.2 ⟨rfl, ih⟩
  | undone tried succeeded later ih => exact List.cons_prefix_cons.2 ⟨rfl, ih⟩

theorem account (h : Tells position steps entries run) {i : Nat} {step : Step σ Id ε π} {record : StepRecord}
    (hstep : steps[i]? = some step) (hrecord : run.audit.records[i]? = some record) :
    Account step (executionsAt (position + i) entries) (undoingsAt (position + i) entries) record := by
  -- at the first position the later entries are silent, and at a later one what is put around them is
  induction h generalizing i with
  | ended => cases hrecord
  | @skipping position _ _ _ _ later ih =>
    cases i with
    | zero =>
      cases hstep
      cases hrecord
      rw [Nat.add_zero, later.silent_here.1, later.silent_here.2]
      exact .skipped
    | succ i =>
      rw [show position + (i + 1) = position + 1 + i by omega]
      exact ih hstep hrecord
  | @passingOver position _ _ _ _ _ _ tried failed later ih =>
    cases i with
    | zero =>
      cases hstep
      cases hrecord
      simp only [Nat.add_zero, executionsAt_append, executionsAt_executions, undoingsAt_append,
        undoingsAt_executions, later.silent_here, List.append_nil]
      exact .failed tried failed false
    | succ i =>
      have hne : position ≠ position + (i + 1) := by omega
      rw [executionsAt_executions_append hne, undoingsAt_executions_append,
        show position + (i + 1) = position + 1 + i by omega]
      exact ih hstep hrecord
  | stopped tried failed =>
    cases i with
    | zero =>
      cases hstep
      cases hrecord
      simp only [Nat.add_zero, executionsAt_executions, undoingsAt_executions]
      exact .failed tried failed true
    | succ i => cases hrecord
  | @executed position _ _ _ _ _ _ _ tried succeeded later ih =>
    cases i with
    | zero =>
      cases hstep
      cases hrecord
      simp only [Nat.add_zero, executionsAt_append, executionsAt_executions, undoingsAt_append,
        undoingsAt_executions, later.silent_here, List.append_nil]
      exact .executed tried succeeded
    | succ i =>
      have hne : position ≠ position + (i + 1) := by omega
      rw [executionsAt_executions_append hne, undoingsAt_executions_append,
        show position + (i + 1) = position + 1 + i by omega]
      exact ih hstep hrecord
  | @undone position _ _ _ _ _ _ _ undo tried succeeded later ih =>
    cases i with
    | zero =>
      cases hstep
      cases hrecord
      simp only [Nat.add_zero, executionsAt_append, executionsAt_executions, executionsAt_compensate,
        undoingsAt_append, undoingsAt_executions, undoingsAt_compensate, later.silent_here, List.append_nil,
        List.nil_append]
      exact .undone tried succeeded undo
    | succ i =>
      have hne : position ≠ position + (i + 1) := by omega
      rw [executionsAt_append_compensate, undoingsAt_append_compensate hne, executionsAt_executions_append hne,
        undoingsAt_executions_append, show position + (i + 1) = position + 1 + i by omega]
      exact ih hstep hrecord

theorem silent_after (h : Tells position steps entries run) {later : Nat}
    (hlater : position + run.audit.records.length ≤ later) :
    executionsAt later entries = [] ∧ undoingsAt later entries = [] := by
  induction h with
  | ended => exact ⟨rfl, rfl⟩
  | @skipping position _ _ _ run _ ih =>
    have hlength : ∀ name, (run.skipping name).audit.records.length = run.audit.records.length + 1 := fun _ => rfl
    rw [hlength] at hlater
    exact ih (by omega)
  | @passingOver position _ _ _ run _ tries tried failed _ ih =>
    have hlength : ∀ name, (run.passingOver name tries).audit.records.length = run.audit.records.length + 1 :=
      fun _ => rfl
    rw [hlength] at hlater
    rw [executionsAt_executions_append (by omega), undoingsAt_executions_append]
    exact ih (by omega)
  | @stopped position _ _ _ tries tried failed =>
    have hlength : ∀ name, (Run.stopped (ε := ε) name tries).audit.records.length = 1 := fun _ => rfl
    rw [hlength] at hlater
    exact ⟨executionsAt_executions_of_ne (by omega), undoingsAt_executions⟩
  | @executed position _ _ _ _ tries _ audit tried succeeded _ ih =>
    have hlength : ∀ record, (audit.cons record).records.length = audit.records.length + 1 := fun _ => rfl
    simp only [hlength] at hlater
    rw [executionsAt_executions_append (by omega), undoingsAt_executions_append]
    exact ih (by simp only; omega)
  | @undone position _ _ _ _ tries _ audit undo tried succeeded _ ih =>
    have hlength : ∀ record, (audit.cons record).records.length = audit.records.length + 1 := fun _ => rfl
    simp only [hlength] at hlater
    have hne : position ≠ later := by omega
    rw [executionsAt_append_compensate, undoingsAt_append_compensate hne, executionsAt_executions_append hne,
      undoingsAt_executions_append]
    exact ih (by simp only; omega)

theorem completed (h : Tells position steps entries run) {report : Report ε} (hreport : run.result = .ok report) :
    Completed steps entries report run.audit := by
  induction h generalizing report with
  | ended =>
    cases hreport
    constructor <;> simp [Run.ended, AuditLog.empty, AuditLog.stepsWithStatus, undoingsAt]
  | @skipping _ step _ _ run later ih =>
    obtain ⟨aborted | report, audit⟩ := run
    · cases hreport
    cases hreport
    have ih := ih rfl
    constructor
    · exact congrArg (· + 1) ih.all
    · exact ih.executed
    · exact congrArg (step.name :: ·) ih.skipped
    · exact ih.optionalFailures
    · exact List.forall_mem_cons.2 ⟨⟨nofun, nofun, nofun⟩, ih.others⟩
    · exact ih.noUndoing
  | @passingOver _ step _ _ run _ tries tried failed later ih =>
    obtain ⟨aborted | report, audit⟩ := run
    · cases hreport
    cases hreport
    have ih := ih rfl
    constructor
    · exact congrArg (· + 1) ih.all
    · exact ih.executed
    · exact ih.skipped
    · exact congrArg ((step.name, some tries.result.message) :: ·) ih.optionalFailures
    · exact List.forall_mem_cons.2 ⟨⟨nofun, nofun, nofun⟩, ih.others⟩
    · intro position
      rw [undoingsAt_append, undoingsAt_executions, ih.noUndoing position]
      rfl
  | stopped tried failed => cases hreport
  | @executed _ step _ _ _ _ _ _ tried succeeded later ih =>
    cases hreport
    have ih := ih rfl
    constructor
    · exact congrArg (· + 1) ih.all
    · exact congrArg (step.name :: ·) ih.executed
    · exact ih.skipped
    · exact ih.optionalFailures
    · exact List.forall_mem_cons.2 ⟨⟨nofun, nofun, nofun⟩, ih.others⟩
    · intro position
      rw [undoingsAt_append, undoingsAt_executions, ih.noUndoing position]
      rfl
  | undone tried succeeded later ih => cases hreport

/-- What the log of an aborted run has in common with the error, told from any position on. -/
structure Traces (aborted : Aborted ε) (records : List StepRecord) : Prop where
  failed : ∃ earlier record, records = earlier ++ [record] ∧ record.status = .failed ∧
    record.name = aborted.step ∧ record.message = some aborted.message ∧ ∀ record ∈ earlier, record.status ≠ .failed
  noneExecuted : ∀ record ∈ records, record.status ≠ .executed
  failures : aborted.undoFailures.map (fun f => (f.step, some f.description, some f.message)) =
    ((records.filter (·.status == .compensationFailed)).map fun r => (r.name, r.compensation, r.message)).reverse
  fully : (∃ step message cause, aborted = .undone step message cause) ↔
    ∀ record ∈ records, record.status ≠ .compensationFailed

theorem Traces.cons {aborted : Aborted ε} {records : List StepRecord} (h : Traces aborted records)
    {record : StepRecord}
    (hstatus : record.status = .skipped ∨ record.status = .optionalFailed ∨ record.status = .compensated) :
    Traces aborted (record :: records) := by
  have hothers : record.status ≠ .failed ∧ record.status ≠ .executed ∧ record.status ≠ .compensationFailed := by
    rcases hstatus with hstatus | hstatus | hstatus <;> rw [hstatus] <;> decide
  obtain ⟨hfailed, hexecuted, hundone⟩ := hothers
  constructor
  · obtain ⟨earlier, last, rfl, hstatus, hname, hmessage, hothers⟩ := h.failed
    refine ⟨record :: earlier, last, rfl, hstatus, hname, hmessage, ?_⟩
    exact List.forall_mem_cons.2 ⟨hfailed, hothers⟩
  · exact List.forall_mem_cons.2 ⟨hexecuted, h.noneExecuted⟩
  · rw [List.filter_cons_of_neg (by simpa using hundone)]
    exact h.failures
  · rw [h.fully, List.forall_mem_cons]
    exact ⟨fun hall => ⟨hundone, hall⟩, fun hall => hall.2⟩

theorem Traces.cons_failure {aborted : Aborted ε} {records : List StepRecord} (h : Traces aborted records)
    {record : StepRecord} {name description message : String} {cause : Option ε}
    (hstatus : record.status = .compensationFailed) (hname : record.name = name)
    (hdescription : record.compensation = some description) (hmessage : record.message = some message) :
    Traces (.partlyUndone aborted.step aborted.message aborted.cause
      (aborted.undoFailures ++ [⟨name, description, message, cause⟩])) (record :: records) := by
  constructor
  · obtain ⟨earlier, last, rfl, hlast, hlastName, hlastMessage, hothers⟩ := h.failed
    refine ⟨record :: earlier, last, rfl, hlast, hlastName, hlastMessage, List.forall_mem_cons.2 ⟨?_, hothers⟩⟩
    rw [hstatus]
    decide
  · refine List.forall_mem_cons.2 ⟨?_, h.noneExecuted⟩
    rw [hstatus]
    decide
  · rw [List.filter_cons_of_pos (by simp [hstatus])]
    have hfailures := h.failures
    rw [Aborted.undoFailures, List.map_append, hfailures]
    simp [hname, hdescription, hmessage]
  · constructor
    · rintro ⟨_, _, _, hundone⟩
      cases hundone
    · intro hall
      exact absurd hstatus (hall record List.mem_cons_self)

theorem traces (h : Tells position steps entries run) {aborted : Aborted ε} (haborted : run.result = .error aborted) :
    Traces aborted run.audit.records := by
  induction h generalizing aborted with
  | ended => cases haborted
  | @skipping _ step _ _ run later ih =>
    obtain ⟨aborted | report, audit⟩ := run
    · cases haborted
      exact (ih rfl).cons (.inl rfl)
    · cases haborted
  | @passingOver _ step _ _ run _ tries tried failed later ih =>
    obtain ⟨aborted | report, audit⟩ := run
    · cases haborted
      exact (ih rfl).cons (.inr (.inl rfl))
    · cases haborted
  | @stopped _ step _ _ tries tried failed =>
    cases haborted
    have hstatus : (StepRecord.failed step.name tries.attempts tries.result.message true).status = .failed := rfl
    constructor
    · exact ⟨[], _, rfl, hstatus, rfl, rfl, List.forall_mem_nil _⟩
    · exact List.forall_mem_singleton.2 (by rw [hstatus]; decide)
    · rfl
    · exact ⟨fun _ => List.forall_mem_singleton.2 (by rw [hstatus]; decide), fun _ => ⟨_, _, _, rfl⟩⟩
  | executed tried succeeded later ih => cases haborted
  | @undone _ step _ _ _ tries aborted audit undo tried succeeded later ih =>
    cases haborted
    have ih := ih rfl
    rw [Aborted.afterUndo]
    cases hundo : undo.isSuccess with
    | true => exact ih.cons (.inr (.inr rfl))
    | false => exact ih.cons_failure rfl rfl rfl rfl

theorem unwound (h : Tells 0 steps entries run) {aborted : Aborted ε} (haborted : run.result = .error aborted) :
    Unwound entries aborted run.audit := by
  have htraces := h.traces haborted
  have haccount : ∀ {position : Nat} {record : StepRecord}, run.audit.records[position]? = some record →
      ∃ step : Step σ Id ε π, Account step (executionsAt position entries) (undoingsAt position entries) record := by
    intro position record hrecord
    -- no record stands without a step
    have hlength : position < steps.length := by
      have hprefix := h.names.length_le
      have hposition := (List.getElem?_eq_some_iff.1 hrecord).1
      simp only [List.length_map] at hprefix
      omega
    have htells := h.account (List.getElem?_eq_getElem hlength) hrecord
    rw [Nat.zero_add] at htells
    exact ⟨_, htells⟩
  constructor
  · exact htraces.failed
  · exact htraces.noneExecuted
  · intro position record hrecord hsucceeded
    obtain ⟨step, haccount⟩ := haccount hrecord
    generalize executionsAt position entries = results at haccount hsucceeded
    generalize undoingsAt position entries = undoings at haccount
    cases haccount with
    | skipped => simp at hsucceeded
    | failed tried failed aborts =>
      rw [tried.any_isSuccess, failed] at hsucceeded
      cases hsucceeded
    | executed tried succeeded =>
      exact absurd rfl (htraces.noneExecuted _ (List.mem_of_getElem? hrecord))
    | undone tried succeeded undo => exact ⟨undo, rfl, rfl, rfl⟩
  · intro position hfailed
    cases hrecord : run.audit.records[position]? with
    | none =>
      have hlater := List.getElem?_eq_none_iff.1 hrecord
      exact (h.silent_after (by omega)).2
    | some record =>
      obtain ⟨step, haccount⟩ := haccount hrecord
      generalize executionsAt position entries = results at haccount hfailed
      generalize undoingsAt position entries = undoings at haccount
      cases haccount with
      | undone tried succeeded undo =>
        rw [tried.any_isSuccess, succeeded] at hfailed
        cases hfailed
      | _ => rfl
  · exact htraces.failures
  · exact htraces.fully

theorem story (h : Tells 0 steps entries run) : Story steps entries run where
  visited := h.names
  recorded position step record hstep hrecord := by
    have haccount := h.account hstep hrecord
    rw [Nat.zero_add] at haccount
    exact haccount.recorded
  unvisited position hposition := h.silent_after (by omega)
  completed report hreport := h.completed hreport
  aborted aborted haborted := h.unwound haborted

end Tells

/-- The log and the result of every run tell the same story, which is that of its calls. Writing the calls down changes
nothing else. -/
theorem Saga.run_story (saga : Saga σ Id ε π)
    (hretries : ∀ step ∈ saga.steps, (saga.policyFor step).maxRetries.toNat < attemptCounterMax) (s : σ) :
    ∃ (run : Run ε) (h : Chronicle σ ε π), saga.chronicled.run.run.run ⟨s, []⟩ = pure (.ok run, h) ∧
      saga.run.run.run s = pure (.ok run, h.state) ∧ Story saga.steps h.entries run := by
  obtain ⟨run, h, hrun, htells⟩ := saga.run_tells hretries s
  exact ⟨run, h, hrun, saga.run_of_chronicled hrun, htells.story⟩

theorem Saga.run_story_booking :
    ∃ (run : Run String) (h : Chronicle Nat String Unit),
      Orchestration.booking.run.run.run 0 = pure (.ok run, h.state) ∧
      Story Orchestration.booking.steps h.entries run ∧
      run.audit.records.map (fun r => (r.name, r.status, r.attempts)) =
        [("reserve", .compensated, 2), ("discount", .skipped, 0), ("notify", .optionalFailed, 1),
          ("reserve", .compensationFailed, 1), ("pay", .failed, 1)] := by
  have hretries : ∀ step ∈ Orchestration.booking.steps,
      (Orchestration.booking.policyFor step).maxRetries.toNat < attemptCounterMax := by decide
  obtain ⟨run, h, -, hrun, hstory⟩ := Orchestration.booking.run_story hretries 0
  refine ⟨run, h, hrun, hstory, ?_⟩
  generalize h.state = final at hrun
  cases hrun
  rfl

end Missions
