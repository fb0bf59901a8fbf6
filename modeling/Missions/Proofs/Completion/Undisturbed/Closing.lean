import Missions.Proofs.Completion.Outcome
import Missions.Proofs.Completion.Stages
import Missions.Proofs.Completion.Undisturbed.Attempt

namespace Missions

open Procedure

variable {may : CompletionError → Prop} {ctx : Context} {books : Books}

namespace Advance

variable {m : Mission} {p : Participant} {x : Execution}

def marks (p p' : Participant) : Context.ClosingMarks :=
  ⟨some .inProgress, some .completed, some p.progress, some p'.progress, some p.status, some p'.status⟩

/-- An attempt that fails leaves the books as they were, unless its error says that the execution stays claimed. -/
theorem meets_update (hmay : ∀ e : CompletionError, e.leftClaimed = none → may e) (hm : ctx.mission = some m)
    (hp : ctx.participant = some p) (hx : ctx.execution = some x) (hopen : books.executions.get? x.id = some x)
    (hstatus : x.status = .inProgress) :
    update.Meets (Books.protocol may Context) (Either
      (fun ctx' books' => ctx'.brief = ctx.brief ∧ ctx'.reward = ctx.reward ∧
        ctx'.closing = marks p (books.advanced m p x) ∧ ctx'.execution = some { x with status := .completed } ∧
        books' = books.closed (.regular m p x))
      fun e ctx' books' => ctx'.brief = ctx.brief ∧ ctx'.reward = ctx.reward ∧ ctx'.records = ctx.records ∧
        (may e ∧ books' = books ∨
          e.leftClaimed = some x.id ∧ books' = books.putExecution { x with status := .completed })) ctx books := by
  have hclaim : books.completeExecution x.id = (true, books.putExecution { x with status := .completed }) := by
    simp only [Books.completeExecution, hopen, if_pos hstatus]
  have hback : (books.putExecution { x with status := .completed }).putExecution { x with status := .inProgress } =
      books := by
    simp only [Books.putExecution, Table.insert_insert, ← hstatus, Table.insert_eq_self hopen]
  obtain ⟨hbrief, hreward, hrecords⟩ := facets_begun ctx p x
  refine meets_of_attempt hm hp hx fun r ctx' g h => ?_
  cases h with
  | lost => exact ⟨hbrief, hreward, hrecords, .inl ⟨hmay _ rfl, rfl⟩⟩
  | refused he => exact ⟨hbrief, hreward, hrecords, .inl ⟨he, rfl⟩⟩
  | released hclaimed he =>
    obtain rfl := (Prod.mk.inj (hclaim.symm.trans hclaimed)).2
    exact ⟨hbrief, hreward, hrecords, .inl ⟨he, hback⟩⟩
  | stuck hclaimed =>
    obtain rfl := (Prod.mk.inj (hclaim.symm.trans hclaimed)).2
    exact ⟨hbrief, hreward, hrecords, .inr ⟨rfl, rfl⟩⟩
  | closed hclaimed hupdated =>
    obtain rfl := (Prod.mk.inj (hclaim.symm.trans hclaimed)).2
    subst hupdated
    refine ⟨?_, ?_, ?_, ?_, rfl⟩
    all_goals simp (disch := decide) only [begun, ended, Context.brief, Context.reward, Context.closing, Context.kept,
      Context.keep, Context.withParticipant, Context.withExecutionStatus, Snapshots.get?_insert_of_ne,
      Snapshots.get?_insert_self, hx, hstatus, Option.map_some]
    rfl

theorem meets_restoreExecution {after : ExecutionStatus} (hmoved : after ≠ x.status)
    (hclosed : books.executions.get? x.id = some { x with status := after }) :
    (restoreExecution x.id x.status after).Meets (Books.protocol may Context) (fun r ctx' books' => ctx' = ctx ∧
      books' = if r.isOk then books.putExecution x else books) ctx books := by
  simp only [restoreExecution, meets_bind, meets_ask_books, ne_eq, reduceCtorEq, not_false_eq_true, implies_true,
    Books.perform, hclosed, meets_require_some, if_neg hmoved, not_true_eq_false, if_false, meets_pure]
  exact ⟨⟨⟨trivial, rfl⟩, fun e _ => ⟨trivial, rfl⟩⟩, fun e _ => ⟨trivial, rfl⟩⟩

theorem meets_restoreParticipant {q : Participant} {mission : Int} (hmarks : ctx.closing = marks p q)
    (hq : p = { q with progress := p.progress, status := p.status })
    (hfound : books.participantOf mission ctx.request.user = some q)
    (hstored : books.participants.get? q.id = some q) :
    (restoreParticipant mission).Meets (Books.protocol may Context) (fun r ctx' books' => ctx' = ctx ∧
      books' = if r.isOk then books.putParticipant p else books) ctx books := by
  have hprogress : ctx.kept Snapshot.progressBefore = some p.progress :=
    congrArg Context.ClosingMarks.progressBefore hmarks
  have hprogress' : ctx.kept Snapshot.progressAfter = some q.progress :=
    congrArg Context.ClosingMarks.progressAfter hmarks
  have hstatus : ctx.kept Snapshot.participantBefore = some p.status :=
    congrArg Context.ClosingMarks.participantBefore hmarks
  have hstatus' : ctx.kept Snapshot.participantAfter = some q.status :=
    congrArg Context.ClosingMarks.participantAfter hmarks
  simp only [restoreParticipant, meets_bind, meets_get, hprogress, hprogress', hstatus, hstatus', meets_ask_books,
    ne_eq, reduceCtorEq, not_false_eq_true, implies_true, Books.perform, hfound, meets_require_some]
  refine ⟨?_, fun e _ => ⟨trivial, rfl⟩⟩
  by_cases hsame : q.progress = p.progress ∧ q.status = p.status
  · have hrestored : q = p := by rw [hq, ← hsame.1, ← hsame.2]
    rw [if_pos hsame, meets_pure]
    exact ⟨rfl, hrestored ▸ (Books.putParticipant_eq_self hstored).symm⟩
  · simp only [if_neg hsame, not_true_eq_false, or_self, if_false, meets_bind, meets_ask_books, ne_eq, reduceCtorEq,
      not_false_eq_true, implies_true, Books.perform, meets_pure]
    exact ⟨⟨trivial, congrArg books.putParticipant hq.symm⟩, fun e _ => ⟨trivial, rfl⟩⟩

theorem meets_revert {q : Participant} (hm : ctx.mission = some m)
    (hx : ctx.execution.map (·.id) = some x.id) (hmarks : ctx.closing = marks p q) (hstatus : x.status = .inProgress)
    (hclosed : books.executions.get? x.id = some { x with status := .completed })
    (hq : p = { q with progress := p.progress, status := p.status })
    (hfound : books.participantOf m.id ctx.request.user = some q)
    (hstored : books.participants.get? q.id = some q) :
    revert.Meets (Books.protocol may Context) (Either
      (fun ctx' books' => ctx'.brief = ctx.brief ∧ ctx'.reward = ctx.reward ∧
        books' = (books.putExecution x).putParticipant p)
      fun _ ctx' books' => ctx'.brief = ctx.brief ∧ ctx'.reward = ctx.reward ∧
        (books' = books ∨ books' = books.putExecution x ∨ books' = books.putParticipant p)) ctx books := by
  have hbefore : ctx.kept Snapshot.targetBefore = some x.status :=
    hstatus ▸ congrArg Context.ClosingMarks.targetBefore hmarks
  have hafter : ctx.kept Snapshot.targetAfter = some .completed :=
    congrArg Context.ClosingMarks.targetAfter hmarks
  obtain ⟨execution, hexecution, hid⟩ := Option.map_eq_some_iff.1 hx
  simp only [revert, meets_bind, meets_get, hbefore, hafter, hexecution, hm, meets_require_some, meets_outcome, hid]
  refine (meets_restoreExecution (by simp [hstatus]) hclosed).mono fun executionOutcome ctx' books' hexecution => ?_
  obtain ⟨rfl, rfl⟩ := hexecution
  simp only [meets_modify]
  refine (meets_restoreParticipant (p := p) (q := q) ?_ hq ?_ ?_).mono
    fun participantOutcome ctx' books' hparticipant => ?_
  · cases executionOutcome <;> exact hmarks
  · cases executionOutcome <;> exact hfound
  · cases executionOutcome <;> exact hstored
  obtain ⟨rfl, rfl⟩ := hparticipant
  cases executionOutcome with
  | error e =>
    cases participantOutcome with
    | error e' => exact ⟨rfl, rfl, .inl rfl⟩
    | ok found => cases found <;> exact ⟨rfl, rfl, .inr (.inr rfl)⟩
  | ok moved =>
    cases participantOutcome with
    | error e' => cases moved <;> exact ⟨rfl, rfl, .inr (.inl rfl)⟩
    | ok found => cases moved <;> cases found <;> exact ⟨rfl, rfl, rfl⟩

end Advance

namespace Closing

variable {i : Instance}

theorem meets_close (hi : ctx.pinned = some i) (hopen : books.instances.get? i.id = some i)
    (hstatus : i.status = .inProgress) :
    close.Meets (Books.protocol may Context) (Either
      (fun ctx' books' => ctx'.brief = ctx.brief ∧ ctx'.reward = ctx.reward ∧
        ctx'.closing.targetBefore = some .inProgress ∧ ctx'.closing.targetAfter = some .completed ∧
        ctx'.pinned = some { i with status := .completed } ∧ books' = books.putInstance { i with status := .completed })
      fun e ctx' books' => ctx'.brief = ctx.brief ∧ ctx'.reward = ctx.reward ∧ ctx'.records = ctx.records ∧
        may e ∧ books' = books) ctx books := by
  have hclaim : books.completeInstance i.id = (true, books.putInstance { i with status := .completed }) := by
    simp only [Books.completeInstance, hopen, if_pos hstatus]
  simp only [close, meets_bind, meets_get, hi, meets_require_some, meets_keep, meets_ask_books, ne_eq, reduceCtorEq,
    not_false_eq_true, implies_true, Books.perform, hclaim, meets_check, if_true, meets_modify, meets_pure, Either]
  refine ⟨⟨?_, ?_, ?_, ?_, ?_, trivial⟩, fun e he => ⟨?_, ?_, ?_, he, trivial⟩⟩
  all_goals simp (disch := decide) only [Context.brief, Context.reward, Context.records, Context.closing, Context.kept,
    Context.keep, Context.withInstanceStatus, Snapshots.get?_insert_of_ne, Snapshots.get?_insert_self, hi, hstatus,
    Option.map_some]

theorem meets_revert (hi : ctx.pinned.map (·.id) = some i.id) (hbefore : ctx.closing.targetBefore = some .inProgress)
    (hafter : ctx.closing.targetAfter = some .completed) (hstatus : i.status = .inProgress)
    (hclosed : books.instances.get? i.id = some { i with status := .completed }) :
    revert.Meets (Books.protocol may Context) (Either
      (fun ctx' books' => ctx'.brief = ctx.brief ∧ ctx'.reward = ctx.reward ∧ books' = books.putInstance i)
      fun _ ctx' books' => ctx'.brief = ctx.brief ∧ ctx'.reward = ctx.reward ∧ books' = books) ctx books := by
  have hbefore : ctx.kept Snapshot.targetBefore = some i.status := hstatus ▸ hbefore
  have hafter : ctx.kept Snapshot.targetAfter = some .completed := hafter
  have hmoved : ExecutionStatus.completed ≠ i.status := by simp [hstatus]
  obtain ⟨loaded, hloaded, hid⟩ := Option.map_eq_some_iff.1 hi
  simp only [revert, meets_bind, meets_get, hbefore, hafter, hloaded, hid, meets_require_some, meets_ask_books, ne_eq,
    reduceCtorEq, not_false_eq_true, implies_true, Books.perform, hclosed, if_neg hmoved, if_false, not_true_eq_false,
    meets_modify, meets_pure, Either]
  exact ⟨⟨⟨rfl, rfl, trivial⟩, fun e _ => ⟨trivial, trivial, trivial⟩⟩, fun e _ => ⟨trivial, trivial, trivial⟩⟩

end Closing

end Missions
