import Missions.Proofs.Saga.Story

/-! The error of an aborted run blames the step of the one failed record, for the reason that its last attempt gave,
and then the steps that could not be undone, the latest first. -/

namespace Missions

variable {σ ε π : Type}

/-- A compensation that failed, as its record tells it. The record stands with its position. -/
structure UndoFailure.Recorded (entries : List (Entry ε π)) (f : UndoFailure ε) (r : StepRecord × Nat) : Prop where
  step : r.1.name = f.step
  description : r.1.compensation = some f.description
  message : r.1.message = some f.message
  /-- There was one compensation, and its error is that of the failure. -/
  cause : (undoingsAt r.2 entries).map (·.cause) = [f.error]

/-- The error of an aborted run, as the records tell it. Each record stands with its position. -/
structure Blames (entries : List (Entry ε π)) (records : List (StepRecord × Nat)) (aborted : Aborted ε) : Prop where
  /-- One record is that of a step that failed, and what its last attempt failed with is the cause. -/
  failed : ∃ record position, records.filter (·.1.status == .failed) = [(record, position)] ∧
    record.name = aborted.step ∧ record.message = some aborted.message ∧
    (executionsAt position entries).getLast?.map (·.cause) = some aborted.cause
  undoFailures : List.Forall₂ (UndoFailure.Recorded entries) aborted.undoFailures
    (records.filter (·.1.status == .compensationFailed)).reverse
  fully : (∃ step message cause, aborted = .undone step message cause) ↔
    records.filter (·.1.status == .compensationFailed) = []

namespace Blames

variable {entries entries' : List (Entry ε π)} {records : List (StepRecord × Nat)} {aborted : Aborted ε}

theorem of_entries (h : Blames entries records aborted)
    (hsame : ∀ r ∈ records, executionsAt r.2 entries' = executionsAt r.2 entries ∧
      undoingsAt r.2 entries' = undoingsAt r.2 entries) : Blames entries' records aborted := by
  constructor
  · obtain ⟨record, position, hfilter, hname, hmessage, hcause⟩ := h.failed
    refine ⟨record, position, hfilter, hname, hmessage, ?_⟩
    have hmem : (record, position) ∈ records := List.mem_of_mem_filter (hfilter ▸ List.mem_singleton_self _)
    rw [(hsame _ hmem).1, hcause]
  · refine (List.forall₂_iff_zip.2 ⟨h.undoFailures.length_eq, fun {f r} hzip => ?_⟩)
    have hrecorded := (List.forall₂_iff_zip.1 h.undoFailures).2 hzip
    have hmem : r ∈ records := List.mem_of_mem_filter (List.mem_reverse.1 (List.of_mem_zip hzip).2)
    exact ⟨hrecorded.step, hrecorded.description, hrecorded.message, (hsame r hmem).2 ▸ hrecorded.cause⟩
  · exact h.fully

theorem cons (h : Blames entries records aborted) {record : StepRecord} (position : Nat)
    (hstatus : record.status = .skipped ∨ record.status = .optionalFailed ∨ record.status = .compensated) :
    Blames entries ((record, position) :: records) aborted := by
  obtain ⟨hfailed, hundone⟩ : record.status ≠ .failed ∧ record.status ≠ .compensationFailed := by
    rcases hstatus with hstatus | hstatus | hstatus <;> rw [hstatus] <;> decide
  have hfilter : ((record, position) :: records).filter (·.1.status == .compensationFailed) =
      records.filter (·.1.status == .compensationFailed) := List.filter_cons_of_neg (by simpa using hundone)
  constructor
  · rw [List.filter_cons_of_neg (by simpa using hfailed)]
    exact h.failed
  · rw [hfilter]
    exact h.undoFailures
  · rw [hfilter]
    exact h.fully

theorem cons_failure (h : Blames entries records aborted) {r : StepRecord × Nat} {f : UndoFailure ε}
    (hstatus : r.1.status = .compensationFailed) (hrecorded : f.Recorded entries r) :
    Blames entries (r :: records)
      (.partlyUndone aborted.step aborted.message aborted.cause (aborted.undoFailures ++ [f])) := by
  have hfilter : (r :: records).filter (·.1.status == .compensationFailed) =
      r :: records.filter (·.1.status == .compensationFailed) := List.filter_cons_of_pos (by simp [hstatus])
  constructor
  · rw [List.filter_cons_of_neg (by simp [hstatus])]
    exact h.failed
  · rw [hfilter, List.reverse_cons]
    exact List.rel_append h.undoFailures (.cons hrecorded .nil)
  · rw [hfilter]
    constructor
    · rintro ⟨_, _, _, hundone⟩
      cases hundone
    · intro hnone
      cases hnone

end Blames

theorem Tells.blames {position : Nat} {steps : List (Step σ Id ε π)} {entries : List (Entry ε π)} {run : Run ε}
    (h : Tells position steps entries run) {aborted : Aborted ε} (haborted : run.result = .error aborted) :
    Blames entries (run.audit.records.zipIdx position) aborted := by
  -- the later records stand at later positions, where what is put around the later entries is silent
  have hlater {records : List StepRecord} {position : Nat} {r : StepRecord × Nat}
      (hr : r ∈ records.zipIdx (position + 1)) : position ≠ r.2 := Nat.ne_of_lt (List.le_snd_of_mem_zipIdx hr)
  induction h generalizing aborted with
  | ended => cases haborted
  | @skipping position step _ _ run later ih =>
    obtain ⟨aborted | report, audit⟩ := run
    · cases haborted
      exact (ih rfl).cons position (.inl rfl)
    · cases haborted
  | @passingOver position step _ _ run _ tries tried failed later ih =>
    obtain ⟨aborted | report, audit⟩ := run
    · cases haborted
      refine ((ih rfl).of_entries fun r hr => ?_).cons position (.inr (.inl rfl))
      rw [executionsAt_executions_append (hlater hr), undoingsAt_executions_append]
      exact ⟨rfl, rfl⟩
    · cases haborted
  | @stopped position step _ _ tries tried failed =>
    cases haborted
    have hstatus : (StepRecord.failed step.name tries.attempts tries.result.message true).status = .failed := rfl
    refine ⟨⟨_, position, List.filter_cons_of_pos (by simp [hstatus]), rfl, rfl, ?_⟩, ?_, ?_⟩
    · rw [executionsAt_executions, tried.getLast?]
      rfl
    · exact .nil
    · exact ⟨fun _ => rfl, fun _ => ⟨_, _, _, rfl⟩⟩
  | executed tried succeeded later ih => cases haborted
  | @undone position step _ entries results tries aborted audit undo tried succeeded later ih =>
    cases haborted
    have ih : Blames (executions position results ++ entries ++ [⟨.compensate position, undo⟩])
        (audit.records.zipIdx (position + 1)) aborted := (ih rfl).of_entries fun r hr => by
      rw [executionsAt_append_compensate, executionsAt_executions_append (hlater hr),
        undoingsAt_append_compensate (hlater hr), undoingsAt_executions_append]
      exact ⟨rfl, rfl⟩
    rw [Aborted.afterUndo]
    cases hundo : undo.isSuccess with
    | true => exact ih.cons position (.inr (.inr rfl))
    | false =>
      refine ih.cons_failure rfl ⟨rfl, rfl, rfl, ?_⟩
      simp [later.silent_here]

end Missions
