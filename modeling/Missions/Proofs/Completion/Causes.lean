import Mathlib.Logic.Relation
import Missions.Proofs.Completion.Verdict

/-! An error of a stopped run leads to what its step failed with, and that may be the error of a stopped run again.
The root cause stands at the end of this chain; nothing that went wrong while steps were undone has a part in it. -/

namespace Missions.CompletionError

/-- The error of a stopped run leads to what the step that stopped it failed with, and no other error leads on. -/
inductive LeadsTo : CompletionError → CompletionError → Prop
  | stopped {step message : String} {cause : CompletionError} : LeadsTo (stopped step message (some cause)) cause
  | stoppedPartlyUndone {step message : String} {cause : CompletionError}
      {failures : List (UndoFailure CompletionError)} :
      LeadsTo (stoppedPartlyUndone step message (some cause) failures) cause

variable {e cause : CompletionError}

theorem leadsTo_iff : LeadsTo e cause ↔ e.stepCause = some cause := by
  constructor
  · rintro (_ | _) <;> rfl
  · intro h
    cases e with
    | stopped =>
      cases h
      exact .stopped
    | stoppedPartlyUndone =>
      cases h
      exact .stoppedPartlyUndone
    | _ => cases h

theorem LeadsTo.rootCause (h : LeadsTo e cause) : e.rootCause = cause.rootCause := by
  cases h <;> rw [CompletionError.rootCause]

theorem rootCause_of_reaches (h : Relation.ReflTransGen LeadsTo e cause) : e.rootCause = cause.rootCause := by
  induction h with
  | refl => rfl
  | tail _ hlast ih => exact ih.trans hlast.rootCause

theorem rootCause_of_last (h : ∀ cause, ¬ LeadsTo e cause) : e.rootCause = e := by
  rw [CompletionError.rootCause.eq_def]
  split
  · exact absurd .stopped (h _)
  · exact absurd .stoppedPartlyUndone (h _)
  · rfl

theorem rootCause_reached (e : CompletionError) :
    Relation.ReflTransGen LeadsTo e e.rootCause ∧ ∀ cause, ¬ LeadsTo e.rootCause cause := by
  -- along the links of the chain
  induction e using rootCause.induct with
  | case1 step message cause ih =>
    rw [LeadsTo.stopped.rootCause]
    exact ⟨.head .stopped ih.1, ih.2⟩
  | case2 step message cause failures ih =>
    rw [LeadsTo.stoppedPartlyUndone.rootCause]
    exact ⟨.head .stoppedPartlyUndone ih.1, ih.2⟩
  | case3 e hstopped hpartly =>
    have hlast : ∀ cause, ¬ LeadsTo e cause := by
      rintro cause (_ | _)
      · exact hstopped _ _ _ rfl
      · exact hpartly _ _ _ _ rfl
    rw [rootCause_of_last hlast]
    exact ⟨.refl, hlast⟩

theorem rootCause_eq_iff :
    e.rootCause = cause ↔ Relation.ReflTransGen LeadsTo e cause ∧ ∀ further, ¬ LeadsTo cause further := by
  constructor
  · rintro rfl
    exact e.rootCause_reached
  · rintro ⟨hreaches, hlast⟩
    rw [rootCause_of_reaches hreaches, rootCause_of_last hlast]

theorem rootCause_rootCause (e : CompletionError) : e.rootCause.rootCause = e.rootCause :=
  rootCause_of_last e.rootCause_reached.2

/-! ### Errors of aborted runs -/

theorem rootCause_ofAborted (a : Aborted CompletionError) :
    (ofAborted a).rootCause = (a.cause.map rootCause).getD (ofAborted a) := by
  cases hcause : a.cause with
  | some cause =>
    have hlink : LeadsTo (ofAborted a) cause := leadsTo_iff.2 ((stepCause_ofAborted a).trans hcause)
    exact hlink.rootCause
  | none =>
    refine rootCause_of_last fun cause hlink => ?_
    rw [leadsTo_iff, stepCause_ofAborted, hcause] at hlink
    cases hlink

/-- The root cause of an error is the only error at the end of its chain, and its own root cause. The error of an
aborted run has the root cause of what the step failed with, or is its own if there is nothing; the failed undoings have
no part in that. It leads to what the step failed with, and keeps the step, its message and every failed undoing. -/
theorem rootCause_bottom :
    (∀ e cause : CompletionError,
      e.rootCause = cause ↔ Relation.ReflTransGen LeadsTo e cause ∧ ∀ further, ¬ LeadsTo cause further) ∧
    (∀ e : CompletionError, e.rootCause.rootCause = e.rootCause) ∧
    (∀ a : Aborted CompletionError, (ofAborted a).rootCause = (a.cause.map rootCause).getD (ofAborted a)) ∧
    (∀ step message cause failures, (ofAborted (.partlyUndone step message (some cause) failures)).rootCause =
      (ofAborted (.undone step message (some cause))).rootCause) ∧
    ∀ a : Aborted CompletionError, (∀ cause, LeadsTo (ofAborted a) cause ↔ a.cause = some cause) ∧
      (ofAborted a).failedStep = some a.step ∧ (ofAborted a).stepMessage = some a.message ∧
      (ofAborted a).undoFailures = a.undoFailures := by
  refine ⟨fun _ _ => rootCause_eq_iff, rootCause_rootCause, rootCause_ofAborted, fun step message cause failures => ?_,
    fun a => ⟨fun cause => ?_, ?_, ?_, undoFailures_ofAborted a⟩⟩
  · rw [rootCause_ofAborted, rootCause_ofAborted]
    rfl
  · rw [leadsTo_iff, stepCause_ofAborted]
  · cases a <;> rfl
  · cases a <;> rfl

/-- A run within a run: of the inner one a step could not be undone, and a claim stayed stuck. -/
example :
    (stopped "outer" "failed"
      (some (stoppedPartlyUndone "inner" "failed"
        (some (executionNotReleased 500 (collaborator "missions" "timeout") (collaborator "executions" "reset")))
        [⟨"grant", "take back", "failed", some (notFound "user" "1")⟩]))).rootCause =
      executionNotReleased 500 (collaborator "missions" "timeout") (collaborator "executions" "reset") := rfl

end Missions.CompletionError
