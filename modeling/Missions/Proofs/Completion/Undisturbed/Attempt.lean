import Missions.Proofs.Completion.Facets
import Missions.Proofs.Completion.Job
import Missions.Proofs.Completion.Undisturbed.Calls

namespace Missions.Advance

open Procedure

variable {may : CompletionError → Prop} {ctx : Context} {books : Books} {errors : List CompletionError}
variable {m : Mission} {p : Participant} {x : Execution}

/-- The context of an attempt that is under way: what the records were is kept. -/
def begun (ctx : Context) (p : Participant) (x : Execution) : Context :=
  ((ctx.keep Snapshot.targetBefore x.status).keep Snapshot.progressBefore p.progress).keep
    Snapshot.participantBefore p.status

theorem facets_begun (ctx : Context) (p : Participant) (x : Execution) :
    (begun ctx p x).brief = ctx.brief ∧ (begun ctx p x).reward = ctx.reward ∧
      (begun ctx p x).records = ctx.records := by
  refine ⟨?_, ?_, ?_⟩
  all_goals simp (disch := decide) only [begun, Context.brief, Context.reward, Context.records, Context.kept,
    Context.keep, Snapshots.get?_insert_of_ne]

theorem closing_begun (ctx : Context) (p : Participant) (x : Execution) :
    (begun ctx p x).closing = { ctx.closing with
      targetBefore := some x.status, progressBefore := some p.progress, participantBefore := some p.status } := by
  simp (disch := decide) only [begun, Context.closing, Context.kept, Context.keep, Snapshots.get?_insert_of_ne,
    Snapshots.get?_insert_self]

theorem begun_begun (ctx : Context) (p : Participant) (x : Execution) : begun (begun ctx p x) p x = begun ctx p x := by
  have hclosing := closing_begun ctx p x
  have htarget : (begun ctx p x).kept Snapshot.targetBefore = some x.status :=
    congrArg Context.ClosingMarks.targetBefore hclosing
  have hprogress : (begun ctx p x).kept Snapshot.progressBefore = some p.progress :=
    congrArg Context.ClosingMarks.progressBefore hclosing
  have hparticipant : (begun ctx p x).kept Snapshot.participantBefore = some p.status :=
    congrArg Context.ClosingMarks.participantBefore hclosing
  generalize begun ctx p x = here at htarget hprogress hparticipant
  rw [begun, here.keep_eq_self htarget, here.keep_eq_self hprogress, here.keep_eq_self hparticipant]

/-- The context of an attempt that closed the execution: what the records are now is kept, and loaded. -/
def ended (ctx : Context) (updated : Participant) : Context :=
  ((((ctx.keep Snapshot.targetAfter .completed).keep Snapshot.progressAfter updated.progress).keep
    Snapshot.participantAfter updated.status).withExecutionStatus .completed).withParticipant updated

theorem records_ended (ctx : Context) (updated : Participant) :
    (ended ctx updated).records =
      { ctx.records with
        execution := ctx.execution.map fun x => { x with status := .completed }, participant := some updated } := rfl

theorem closing_ended (ctx : Context) (updated : Participant) :
    (ended ctx updated).closing = { ctx.closing with
      targetAfter := some .completed, progressAfter := some updated.progress,
      participantAfter := some updated.status } := by
  simp (disch := decide) only [ended, Context.closing, Context.kept, Context.keep, Context.withExecutionStatus,
    Context.withParticipant, Snapshots.get?_insert_of_ne, Snapshots.get?_insert_self]

inductive Attempt (may : CompletionError → Prop) (ctx : Context) (m : Mission) (p : Participant) (x : Execution)
    (books : Books) (errors : List CompletionError) :
    Except CompletionError Success → Context → Books × List CompletionError → Prop
  | lost : Attempt may ctx m p x books errors (.error (.alreadyCompleted "execution" x.id)) (begun ctx p x)
      (books, errors)
  | refused {e : CompletionError} (he : may e) :
      Attempt may ctx m p x books errors (.error e) (begun ctx p x) (books, errors ++ [e])
  | released {claimed : Books} (hclaimed : books.completeExecution x.id = (true, claimed)) {e : CompletionError}
      (he : may e) : Attempt may ctx m p x books errors (.error e) (begun ctx p x)
        (claimed.putExecution { x with status := .inProgress }, errors ++ [e])
  | stuck {claimed : Books} (hclaimed : books.completeExecution x.id = (true, claimed)) {e e' : CompletionError}
      (he : may e) (he' : may e') : Attempt may ctx m p x books errors (.error (.executionNotReleased x.id e e'))
        (begun ctx p x) (claimed, errors ++ [e, e'])
  | closed {claimed : Books} (hclaimed : books.completeExecution x.id = (true, claimed)) {updated : Participant}
      (hupdated : updated = p.advanced (claimed.executionCount p.id .completed) m.totalExecutions) :
      Attempt may ctx m p x books errors
        (.ok ⟨"participant progress updated",
          some (.advanced x.id updated.progress (updated.status == .completed))⟩)
        (ended (begun ctx p x) updated) (claimed.putParticipant updated, errors)

theorem meets_recordProgress {total : UInt32} :
    (recordProgress p total).Meets ((Books.protocol may Context).noting Note.errors) (fun r ctx' g => ctx' = ctx ∧
      match r with
      | .ok updated => updated = p.advanced (books.executionCount p.id .completed) total ∧
          g = (books.putParticipant updated, errors)
      | .error e => may e ∧ g = (books, errors ++ [e])) ctx (books, errors) := by
  simp only [recordProgress, meets_bind, meets_ask_noting, meets_ask_books, ne_eq, reduceCtorEq, not_false_eq_true,
    implies_true, Books.perform, meets_pure, whole_le_progressPercent_iff, Note.errors, List.append_nil]
  exact ⟨⟨⟨trivial, rfl, trivial⟩, fun e he => ⟨trivial, he, trivial⟩⟩, fun e he => ⟨trivial, he, trivial⟩⟩

theorem meets_release {cause : CompletionError} :
    (release x cause).Meets ((Books.protocol may Context).noting Note.errors) (fun r ctx' g => ctx' = ctx ∧
      (r = .ok cause ∧ g = (books.putExecution { x with status := .inProgress }, errors) ∨
        ∃ e, may e ∧ r = .ok (.executionNotReleased x.id cause e) ∧ g = (books, errors ++ [e]))) ctx
      (books, errors) := by
  simp only [release, meets_bind, meets_query_noting, meets_ask_books, ne_eq, reduceCtorEq, not_false_eq_true,
    implies_true, Books.perform, meets_pure, Note.errors, List.append_nil]
  exact ⟨⟨trivial, .inl ⟨trivial, trivial⟩⟩, fun e he => ⟨trivial, .inr ⟨e, he, rfl, rfl⟩⟩⟩

theorem eq_of_not_claimed {id : Int} {claimed : Books} (h : books.completeExecution id = (false, claimed)) :
    claimed = books := by
  rw [Books.completeExecution] at h
  split at h
  · split at h
    · cases h
    · exact (Prod.mk.inj h).2.symm
  · exact (Prod.mk.inj h).2.symm

theorem meets_update_attempt (hm : ctx.mission = some m) (hp : ctx.participant = some p) (hx : ctx.execution = some x) :
    update.Meets ((Books.protocol may Context).noting Note.errors) (Attempt may ctx m p x books errors) ctx
      (books, errors) := by
  simp only [update, meets_bind, meets_get, hm, hp, hx, meets_require_some, meets_keep, meets_ask_noting,
    meets_ask_claim, meets_check, Note.errors, List.append_nil, Bool.false_eq_true, if_false]
  -- only a claim that holds leads on; a lost one and a failed one leave all as it was
  refine ⟨?_, .lost, fun e he => .refused he⟩
  rcases hclaimed : books.completeExecution x.id with ⟨_ | _, claimed⟩
  · obtain rfl := eq_of_not_claimed hclaimed
    exact .lost
  simp only [if_true, meets_outcome]
  refine meets_recordProgress.mono fun r ctx' g hr => ?_
  obtain ⟨rfl, hr⟩ := hr
  cases r with
  | ok updated =>
    obtain ⟨hupdated, rfl⟩ := hr
    exact .closed hclaimed hupdated
  | error e =>
    obtain ⟨he, rfl⟩ := hr
    simp only [meets_bind]
    refine meets_release.mono fun r ctx' g hr => ?_
    obtain ⟨rfl, ⟨rfl, rfl⟩ | ⟨e', he', rfl, rfl⟩⟩ := hr
    · exact .released hclaimed he
    · rw [List.append_assoc]
      exact .stuck hclaimed he he'

theorem meets_of_attempt (hm : ctx.mission = some m) (hp : ctx.participant = some p) (hx : ctx.execution = some x)
    {Q : Except CompletionError Success → Context → Books → Prop}
    (h : ∀ r ctx' g, Attempt may ctx m p x books [] r ctx' g → Q r ctx' g.1) :
    update.Meets (Books.protocol may Context) Q ctx books :=
  ((meets_update_attempt hm hp hx).mono h).of_noting

theorem meets_update_of_attempts {Q : Except CompletionError Success → Context → Books → Prop}
    (hmissing : ∀ what, Q (.error (.missingContext what)) ctx books)
    (h : ∀ m p x, ctx.mission = some m → ctx.participant = some p → ctx.execution = some x →
      ∀ r ctx' g, Attempt may ctx m p x books [] r ctx' g → Q r ctx' g.1) :
    update.Meets (Books.protocol may Context) Q ctx books := by
  by_cases hloaded : ∃ m p x, ctx.mission = some m ∧ ctx.participant = some p ∧ ctx.execution = some x
  · obtain ⟨m, p, x, hm, hp, hx⟩ := hloaded
    exact meets_of_attempt hm hp hx (h m p x hm hp hx)
  · rw [update, meets_bind, meets_get]
    exact .require_bind (hmissing _) fun x hx => .require_bind (hmissing _) fun p hp =>
      .require_bind (hmissing _) fun m hm => absurd ⟨m, p, x, hm, hp, hx⟩ hloaded

end Missions.Advance
