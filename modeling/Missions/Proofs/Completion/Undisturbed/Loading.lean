import Missions.Proofs.Completion.Facets
import Missions.Proofs.Completion.Job
import Missions.Proofs.Completion.Outcome
import Missions.Proofs.Completion.Stages
import Missions.Proofs.Completion.Undisturbed.Calls

namespace Missions

def Job.records : Job → Context.Records
  | regular _ p x => ⟨some x, some p, none⟩
  | pinned _ i => ⟨none, none, some i⟩

namespace Loading

open Procedure

variable {may : CompletionError → Prop} {books : Books} {r : Request}

def Loaded (r : Request) (books : Books) (ctx : Context) : Prop :=
  ∃ job, books.Selects r job ∧ ctx.brief = .of r job.mission ∧ ctx.records = job.records ∧ ctx.reward.after = none

theorem meets_loadExecution (hmay : ∀ e : CompletionError, e.isValidation = true → may e) (hr : r.pinned = false) :
    loadExecution.Meets (Books.protocol may Context) (Either (fun ctx' books' => Loaded r books ctx' ∧ books' = books)
      fun e ctx' books' => ctx' = .start r ∧ may e ∧ books' = books) (.start r) books := by
  rw [loadExecution, meets_bind, meets_get]
  dsimp only
  rw [findMission, bind_assoc]
  refine .ask_bind (by simp) (fun e he => ⟨rfl, he, rfl⟩) (.require_bind ⟨rfl, hmay _ rfl, rfl⟩ fun m hm => ?_)
  refine .ask_bind (by simp) (fun e he => ⟨rfl, he, rfl⟩) (.require_bind ⟨rfl, hmay _ rfl, rfl⟩ fun p hp => ?_)
  refine .check_bind ⟨rfl, hmay _ rfl, rfl⟩ fun hactive => ?_
  refine .ask_bind (by simp) (fun e he => ⟨rfl, he, rfl⟩) (.require_bind ⟨rfl, hmay _ rfl, rfl⟩ fun x hx => ?_)
  refine .check_bind ⟨rfl, hmay _ rfl, rfl⟩ fun huser => .check_bind ⟨rfl, hmay _ rfl, rfl⟩ fun hstatus => ?_
  rw [meets_bind, meets_modify]
  exact ⟨⟨.regular m p x, ⟨hr, hm, hp, hx⟩, rfl, rfl, rfl⟩, rfl⟩

theorem meets_loadInstance (hmay : ∀ e : CompletionError, e.isValidation = true → may e) (hr : r.pinned = true) :
    loadInstance.Meets (Books.protocol may Context) (Either (fun ctx' books' => Loaded r books ctx' ∧ books' = books)
      fun e ctx' books' => ctx' = .start r ∧ may e ∧ books' = books) (.start r) books := by
  rw [loadInstance, meets_bind, meets_get]
  dsimp only
  refine .ask_bind (by simp) (fun e he => ⟨rfl, he, rfl⟩) (.require_bind ⟨rfl, hmay _ rfl, rfl⟩ fun i hi => ?_)
  refine .check_bind ⟨rfl, hmay _ rfl, rfl⟩ fun huser => .check_bind ⟨rfl, hmay _ rfl, rfl⟩ fun hstatus => ?_
  rw [findMission, bind_assoc]
  refine .ask_bind (by simp) (fun e he => ⟨rfl, he, rfl⟩) (.require_bind ⟨rfl, hmay _ rfl, rfl⟩ fun m hm => ?_)
  rw [meets_bind, meets_modify]
  exact ⟨⟨.pinned m i, ⟨hr, hi, of_decide_eq_true hstatus, hm⟩, rfl, rfl, rfl⟩, rfl⟩

/-- Loading finds the job of the request and touches no books. If it fails it has not touched the context either. -/
theorem meets_load (hmay : ∀ e : CompletionError, e.isValidation = true → may e) :
    load.Meets (Books.protocol may Context) (Either (fun ctx' books' => Loaded r books ctx' ∧ books' = books)
      fun e ctx' books' => ctx' = .start r ∧ may e ∧ books' = books) (.start r) books := by
  rw [load, meets_bind, meets_get]
  dsimp only
  by_cases hr : (Context.start r).request.pinned = true
  · rw [if_pos hr]
    exact meets_loadInstance hmay hr
  · rw [if_neg hr]
    exact meets_loadExecution hmay (eq_false_of_ne_true hr)

end Loading

end Missions
