import Missions.Proofs.Completion.Claims.Answering
import Missions.Proofs.Completion.Progress.Records
import Missions.Proofs.Completion.Stages
import Missions.Proofs.Completion.Undisturbed.Attempt
import Missions.Rehearsal.Fixture

/-! An attempt to close an execution writes back whole records as they were when they were loaded. What others have
changed in the record since then stays if the loaded one has it as well, and else it is lost. -/

namespace Missions

/-- Only what an advance is about has changed: the progress, and the status once the progress is whole. -/
structure Participant.Spared (before after : Participant) : Prop where
  frame : after.frame = before.frame
  status : after.progress = 100 ∨ after.status = before.status

theorem Participant.Spared.refl (p : Participant) : p.Spared p := ⟨rfl, .inr rfl⟩

theorem Participant.spared_advanced_iff {p p' : Participant} {completed : Nat} {total : UInt32} :
    p'.Spared (p.advanced completed total) ↔
      p.frame = p'.frame ∧ ((p.advanced completed total).progress = 100 ∨ p.status = p'.status) := by
  by_cases hwhole : (p.advanced completed total).progress = 100
  · exact ⟨fun h => ⟨h.frame, .inl hwhole⟩, fun h => ⟨h.1, .inl hwhole⟩⟩
  · have hstatus : (p.advanced completed total).status = p.status := if_neg hwhole
    exact ⟨fun h => ⟨h.frame, hstatus ▸ h.status⟩, fun h => ⟨h.1, hstatus.symm ▸ h.2⟩⟩

namespace Advance

open Procedure

variable {may : CompletionError → Prop} {ctx : Context} {books : Books}
variable {m : Mission} {p p' : Participant} {x x' : Execution}

/-- What an attempt that began with the loaded records `p` and `x` leaves of the stored ones, `p'` and `x'`. -/
inductive Left (m : Mission) (p p' : Participant) (x x' : Execution) : Bool → Participant → Execution → Prop
  | untouched (status : ExecutionStatus) : Left m p p' x x' false p' { x' with status }
  | released : Left m p p' x x' false p' { x with status := .inProgress }
  | advanced (completed : Nat) :
      Left m p p' x x' true (p.advanced completed m.totalExecutions) { x' with status := .completed }

theorem Left.spares_iff {succeeds : Bool} {q : Participant} {y : Execution} (h : Left m p p' x x' succeeds q y) :
    (p'.Spared q ↔ (succeeds = true → p.frame = p'.frame ∧ (q.progress = 100 ∨ p.status = p'.status))) ∧
      (y.frame = x'.frame ↔ (y = { x with status := .inProgress } → x.frame = x'.frame)) := by
  have hback {status : ExecutionStatus} (hy : { x' with status } = { x with status := .inProgress }) :
      x.frame = x'.frame := (congrArg Execution.frame hy).symm
  cases h with
  | untouched status => exact ⟨iff_of_true (.refl p') nofun, iff_of_true rfl hback⟩
  | released => exact ⟨iff_of_true (.refl p') nofun, fun h _ => h, fun h => h rfl⟩
  | advanced completed =>
    exact ⟨Participant.spared_advanced_iff.trans ⟨fun h _ => h, fun h => h rfl⟩, iff_of_true rfl hback⟩

/-- The books have these in place of the loaded participant and execution, and their other records as before. -/
structure Leaves (p q : Participant) (x y : Execution) (before after : Books) : Prop where
  participants : after.participants = before.participants.insert p.id q
  executions : after.executions = before.executions.insert x.id y

theorem meets_update_leaves (hkeyed : books.Keyed) (hm : ctx.mission = some m) (hp : ctx.participant = some p)
    (hx : ctx.execution = some x) (hp' : books.participants.get? p.id = some p')
    (hx' : books.executions.get? x.id = some x') :
    update.Meets (Books.protocol may Context)
      (fun r _ after => ∃ q y, Left m p p' x x' r.isOk q y ∧ Leaves p q x y books after) ctx books := by
  have hpsame : books.participants = books.participants.insert p.id p' := (Table.insert_eq_self hp').symm
  have hxsame : books.executions = books.executions.insert x.id x' := (Table.insert_eq_self hx').symm
  have hclaim {claimed : Books} (h : books.completeExecution x.id = (true, claimed)) :
      claimed = { books with executions := books.executions.insert x.id { x' with status := .completed } } := by
    rcases Books.completeExecution_cases hkeyed x.id with hfails | ⟨y, hid, hy, -, hclaims⟩
    · exact absurd (hfails.symm.trans h) (by simp)
    · obtain rfl : y = x' := Option.some.inj (hy.symm.trans hx')
      rw [← (Prod.mk.inj (hclaims.symm.trans h)).2, Books.putExecution, hid]
  refine meets_of_attempt hm hp hx fun r ctx' g h => ?_
  cases h with
  | lost | refused he => exact ⟨p', x', .untouched x'.status, hpsame, hxsame⟩
  | released hclaimed he =>
    obtain rfl := hclaim hclaimed
    exact ⟨p', _, .released, hpsame, Table.insert_insert _ _ _ _⟩
  | stuck hclaimed =>
    obtain rfl := hclaim hclaimed
    exact ⟨p', _, .untouched .completed, hpsame, rfl⟩
  | closed hclaimed hupdated =>
    obtain rfl := hclaim hclaimed
    subst hupdated
    exact ⟨_, _, .advanced _, rfl, rfl⟩

/-- Whatever others have made of the loaded participant and execution, and whatever fails: an attempt writes nothing but
these two. It spares what others have changed in the participant unless it succeeds with a loaded participant that
differs, and what they have changed in the execution unless it gives back a loaded execution that differs. -/
theorem execute_spares_iff {S : Type} {server : Server S} {view : S → Books} {good : S → Prop}
    (hserver : server.FailsCleanly may view good) {s : S} (hs : good s) (hkeyed : (view s).Keyed)
    (hm : ctx.mission = some m) (hp : ctx.participant = some p) (hx : ctx.execution = some x)
    (hp' : (view s).participants.get? p.id = some p') (hx' : (view s).executions.get? x.id = some x') :
    ∃ result ctx' s', ((step.execute.run ctx).serve server).run s = ((result, ctx'), s') ∧
      ∃ q y, Left m p p' x x' result.isSuccess q y ∧ Leaves p q x y (view s) (view s') ∧
        (p'.Spared q ↔
          (result.isSuccess = true → p.frame = p'.frame ∧ (q.progress = 100 ∨ p.status = p'.status))) ∧
        (y.frame = x'.frame ↔ (y = { x with status := .inProgress } → x.frame = x'.frame)) := by
  have hexecute : (step.execute.run ctx).Obeys (Books.protocol may Context)
      (fun r after => ∃ q y, Left m p p' x x' r.1.isSuccess q y ∧ Leaves p q x y (view s) after) (view s) := by
    refine obeys_settle.2 ((meets_update_leaves hkeyed hm hp hx hp' hx').mono fun r ctx' after h => ?_)
    cases r with
    | ok => exact h
    | error e =>
      dsimp only
      split <;> exact h
  obtain ⟨q, y, hleft, hleaves⟩ := hexecute.serve (hserver.governs Context) hs
  exact ⟨_, _, _, rfl, q, y, hleft, hleaves, hleft.spares_iff⟩

end Advance

namespace Fixture

def outpaced : Context :=
  .withExecution (.start ⟨"user-1", 100, false, false⟩) { mission with totalExecutions := 2 } participant execution

/-- What others have made of the world since: the participant has withdrawn, and the execution was shared. Some counts
are going to fail. -/
def revised (failures : Nat) : World :=
  [Disturbance.putMission { mission with totalExecutions := 2 },
    .putParticipant { participant with status := .withdrawn }, .putExecution { execution with sharedToFeed := true },
    .failCounts failures].foldl World.disturb {}

def overwriting (failures : Nat) : (CompletionResult × Context) × World :=
  ((Advance.step.execute.run outpaced).serve World.server).run (revised failures)

end Fixture

open Fixture in
theorem Advance.execute_spares_iff_overwriting :
    (overwriting 0).1.1.isSuccess = true ∧ ∃ q, (overwriting 0).2.books.participants.get? 10 = some q ∧
      ¬ { participant with status := .withdrawn }.Spared q := by
  have hok : (overwriting 0).1.1.isSuccess = true := by decide +kernel
  have hstored : (overwriting 0).2.books.participants.get? 10 = some { participant with progress := 50 } := by
    decide +kernel
  have hp : outpaced.participant = some participant := rfl
  have hp' : (revised 0).books.participants.get? participant.id = some { participant with status := .withdrawn } := by
    decide +kernel
  have hx' : (revised 0).books.executions.get? execution.id = some { execution with sharedToFeed := true } := by
    decide +kernel
  obtain ⟨result, ctx', w, hrun, q, y, -, hleaves, hspared, -⟩ := Advance.execute_spares_iff
    (World.server_failsCleanly _) (Faults.hands_any _) (World.keyed_foldl_disturb .empty _) rfl hp rfl hp' hx'
  rw [show overwriting 0 = ((result, ctx'), w) from hrun] at hok hstored ⊢
  have hq : q = { participant with progress := 50 } := by
    rw [hleaves.participants] at hstored
    exact Option.some.inj ((Table.get?_insert_self _ _ _).symm.trans hstored)
  refine ⟨hok, q, by rw [hstored, hq], fun h => ?_⟩
  obtain ⟨-, hwhole | hstatus⟩ := hspared.1 h hok
  · exact absurd (hq ▸ hwhole) (by decide)
  · exact absurd hstatus (by decide)

open Fixture in
/-- One attempt succeeds and brings back a participant who has withdrawn; another one fails, and what it gives back is
an execution that was never shared. -/
theorem Advance.execute_discards_changes :
    ((overwriting 0).1.1.isSuccess = true ∧
      (overwriting 0).2.books.participants.get? 10 = some { participant with progress := 50 }) ∧
    ((overwriting 1).1.1.isSuccess = false ∧ (overwriting 1).2.books.executions.get? 500 = some execution) ∧
    ((revised 0).books.participants.get? 10 = some { participant with status := .withdrawn } ∧
      (revised 1).books.executions.get? 500 = some { execution with sharedToFeed := true }) := by
  decide +kernel

end Missions
