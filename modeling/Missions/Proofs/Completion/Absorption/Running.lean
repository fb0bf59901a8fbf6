import Missions.Proofs.Completion.Stages
import Missions.Proofs.Ledger.RetriedFaults
import Missions.Proofs.Saga.Absorption
import Missions.Proofs.Saga.Serving

namespace Missions

namespace Procedure

variable {α β : Type}

def runIn (p : Procedure α) (ctx : Context) (w : World) : (Except CompletionError α × Context) × World :=
  ((p.run.run ctx).serve World.server).run w

variable {p : Procedure α} {f : α → Procedure β} {ctx ctx' : Context} {w w' : World} {e : CompletionError}

theorem runIn_pure (a : α) (ctx : Context) (w : World) : (pure a : Procedure α).runIn ctx w = ((.ok a, ctx), w) := rfl

theorem runIn_bind (p : Procedure α) (f : α → Procedure β) (ctx : Context) (w : World) :
    (p >>= f).runIn ctx w =
      match p.runIn ctx w with
      | ((.ok a, ctx'), w') => (f a).runIn ctx' w'
      | ((.error e, ctx'), w') => ((.error e, ctx'), w') := by
  rw [runIn, run_bind, Program.run_serve_bind, ← runIn]
  generalize p.runIn ctx w = came
  obtain ⟨⟨_ | _, _⟩, _⟩ := came <;> rfl

theorem runIn_get_bind (f : Context → Procedure β) (ctx : Context) (w : World) :
    (get >>= f).runIn ctx w = (f ctx).runIn ctx w := rfl

theorem runIn_keep_bind {t : SnapshotType} (key : SnapshotKey t) (v : t.Value) (f : Unit → Procedure β) (ctx : Context)
    (w : World) : (keep key v >>= f).runIn ctx w = (f ()).runIn (ctx.keep key v) w := rfl

theorem runIn_modify_bind (g : Context → Context) (f : Unit → Procedure β) (ctx : Context) (w : World) :
    (modify g >>= f).runIn ctx w = (f ()).runIn (g ctx) w := rfl

theorem runIn_require_bind (a : α) (e : CompletionError) (f : α → Procedure β) (ctx : Context) (w : World) :
    (require (some a) e >>= f).runIn ctx w = (f a).runIn ctx w := rfl

theorem runIn_check_bind (holds : Bool) (e : CompletionError) (f : Unit → Procedure β) (ctx : Context) (w : World) :
    (check holds e >>= f).runIn ctx w = if holds then (f ()).runIn ctx w else ((.error e, ctx), w) := by
  cases holds <;> rfl

theorem runIn_outcome (p : Procedure α) (ctx : Context) (w : World) :
    (outcome p).runIn ctx w = ((.ok (p.runIn ctx w).1.1, (p.runIn ctx w).1.2), (p.runIn ctx w).2) := by
  rw [runIn, run_outcome, Program.run_serve_bind]
  rfl

variable {c : Call} {faults faults' : Faults} {books : Books}

theorem runIn_ask (c : Call) (ctx : Context) (w : World) :
    (ask c).runIn ctx w = ((((World.server c).run w).1, ctx), ((World.server c).run w).2) := rfl

theorem runIn_query (c : Call) (ctx : Context) (w : World) :
    (query c).runIn ctx w = ((.ok ((World.server c).run w).1, ctx), ((World.server c).run w).2) := rfl

theorem runIn_ask_bind (h : faults.strike c = (none, faults)) (f : c.Answer → Procedure β) :
    (ask c >>= f).runIn ctx ⟨books, faults⟩ = (f (books.perform c).1).runIn ctx ⟨(books.perform c).2, faults⟩ := by
  rw [runIn_bind, runIn_ask, World.run_server, h]

theorem runIn_ask_bind_struck (h : faults.strike c = (some (.error e), faults')) (f : c.Answer → Procedure β) :
    (ask c >>= f).runIn ctx ⟨books, faults⟩ = ((.error e, ctx), ⟨books, faults'⟩) := by
  rw [runIn_bind, runIn_ask, World.run_server, h]

theorem runIn_query_bind (h : faults.strike c = (none, faults)) (f : Except CompletionError c.Answer → Procedure β) :
    (query c >>= f).runIn ctx ⟨books, faults⟩ =
      (f (.ok (books.perform c).1)).runIn ctx ⟨(books.perform c).2, faults⟩ := by
  rw [runIn_bind, runIn_query, World.run_server, h]

/-! ### Settled procedures -/

def reported (doing : String) (rejects : CompletionError → Bool) : Except CompletionError Success → CompletionResult
  | .ok success => .success success.message success.receipt
  | .error e =>
    if rejects e then .rejected (doing ++ ": " ++ e.message) e else .transient (doing ++ ": " ++ e.message) (some e)

theorem served_settle {doing : String} {rejects : CompletionError → Bool} {body : Procedure Success}
    {r : Except CompletionError Success} (h : body.runIn ctx w = ((r, ctx'), w')) :
    ((settle doing rejects body).run ctx).served World.server w = pure (reported doing rejects r, (ctx', w')) := by
  rw [runIn] at h
  rw [Program.served, run_settle, Program.run_serve_bind, h]
  cases r <;> rfl

/-- How a procedure fares with failures ahead: as it does with none, or it fails with everything ready to try it again
and one of them fewer. -/
inductive Retriable (most : Faults) (awaited : Method) (rejects : CompletionError → Bool) (K : Context → Books → Prop)
    (body : Procedure Success) (ctx : Context) (books : Books) (faults : Faults) : Prop
  | alike {r : Except CompletionError Success} {ctx' : Context} {books' : Books}
      (hcalm : body.runIn ctx ⟨books, {}⟩ = ((r, ctx'), ⟨books', {}⟩))
      (hrun : body.runIn ctx ⟨books, faults⟩ = ((r, ctx'), ⟨books', faults⟩))
  | fails {e : CompletionError} {ctx' : Context} {faults' : Faults}
      (hrun : body.runIn ctx ⟨books, faults⟩ = ((.error e, ctx'), ⟨books, faults'⟩)) (hpasses : rejects e = false)
      (hfaults : most.Bounds faults') (hfewer : faults'.awaiting awaited < faults.awaiting awaited) (hK : K ctx' books)
      (hagain : body.runIn ctx' ⟨books, {}⟩ = body.runIn ctx ⟨books, {}⟩)

variable {most : Faults} {awaited : Method} {rejects : CompletionError → Bool} {K : Context → Books → Prop}
variable {body : Procedure Success}

theorem Retriable.of_unawaited (hfaults : most.Bounds faults)
    {Q : Except CompletionError Success → Context → Unit → Prop}
    (h : body.Meets (.calling Context fun c => faults.awaiting c.method = 0) Q ctx ()) :
    Retriable most awaited rejects K body ctx books faults := by
  obtain ⟨⟨r, ctx'⟩, books', hcalm, hrun⟩ := Program.Obeys.serve_unawaited hfaults h books
  exact .alike hcalm hrun

end Procedure

open Procedure

def Faults.faultModel (most : Faults) : FaultModel (Context × World) where
  calm s := (s.1, s.2.calm)
  within s := most.Bounds s.2.faults

variable {most : Faults} {awaited : Method} {K : Context → Books → Prop} {step : CompletionStep}

section

variable {doing : String} {rejects : CompletionError → Bool} {body : Procedure Success}

theorem run_served_execute (h : step.execute = settle doing rejects body) {ctx ctx' : Context} {w w' : World}
    {r : Except CompletionError Success} (hrun : body.runIn ctx w = ((r, ctx'), w')) :
    (step.served World.server).execute.run (ctx, w) = pure (reported doing rejects r, (ctx', w')) :=
  (congrArg (fun execute => (execute.run ctx).served World.server w) h).trans (served_settle hrun)

theorem run_served_compensate (h : step.compensate = settle doing rejects body) {ctx ctx' : Context} {w w' : World}
    {r : Except CompletionError Success} (hrun : body.runIn ctx w = ((r, ctx'), w')) :
    (step.served World.server).compensate.run (ctx, w) = pure (reported doing rejects r, (ctx', w')) :=
  (congrArg (fun compensate => (compensate.run ctx).served World.server w) h).trans (served_settle hrun)

end

/-- A step absorbs the failures ahead of it if its body fares well with them, if it does not fail in passing when there
are none, and if none of them awaits a call that undoes it. -/
theorem absorbs_settled {doing doing' : String} {rejects rejects' : CompletionError → Bool}
    {body undo : Procedure Success} (hexecute : step.execute = settle doing rejects body)
    (hcompensate : step.compensate = settle doing' rejects' undo)
    (hbody : ∀ ctx books faults, most.Bounds faults → K ctx books →
      Retriable most awaited rejects K body ctx books faults)
    (hlasts : ∀ ctx books, K ctx books → ∀ e ctx' w', body.runIn ctx ⟨books, {}⟩ = ((.error e, ctx'), w') →
      rejects e = true)
    (hundo : ∀ (faults : Faults) ctx,
      undo.Meets (.calling Context fun c => faults.awaiting c.method = 0) (fun _ _ _ => True) ctx ()) :
    (step.served World.server).Absorbs most.faultModel (fun s => s.2.faults.awaiting awaited)
      fun s => K s.1 s.2.books where
  execute := by
    rintro ⟨ctx, books, faults⟩ hfaults hK
    change (∃ s', _ = pure (((step.served World.server).execute.run (ctx, ⟨books, {}⟩)).1, s') ∧
      _ = ((step.served World.server).execute.run (ctx, ⟨books, {}⟩)).2 ∧ _) ∨ _
    cases hbody ctx books faults hfaults hK with
    | @alike r ctx' books' hcalm hrun =>
      rw [run_served_execute hexecute hcalm]
      exact .inl ⟨(ctx', ⟨books', faults⟩), run_served_execute hexecute hrun, rfl, hfaults⟩
    | @fails e ctx' faults' hrun hpasses hfaults' hfewer hK' hagain =>
      have hrun := run_served_execute hexecute hrun
      rw [reported, hpasses] at hrun
      refine .inr ⟨_, _, (ctx', ⟨books, faults'⟩), hrun, hfewer, hfaults', hK', ?_⟩
      obtain ⟨⟨r, ctx''⟩, books', hcalm⟩ := Program.exists_serve_calm (body.run.run ctx) books
      exact (run_served_execute hexecute (hagain.trans hcalm)).trans (run_served_execute hexecute hcalm).symm
  lasts := by
    rintro ⟨ctx, books, faults⟩ hK
    change StepResult.isRetryable ((step.served World.server).execute.run (ctx, ⟨books, {}⟩)).1 = false
    obtain ⟨⟨r, ctx'⟩, books', hcalm⟩ := Program.exists_serve_calm (body.run.run ctx) books
    rw [run_served_execute hexecute hcalm]
    cases r with
    | ok success => rfl
    | error e =>
      rw [reported, hlasts ctx books hK e ctx' _ hcalm]
      rfl
  compensate := by
    rintro ⟨ctx, books, faults⟩ hfaults
    change ∃ s', _ = pure (((step.served World.server).compensate.run (ctx, ⟨books, {}⟩)).1, s') ∧
      _ = ((step.served World.server).compensate.run (ctx, ⟨books, {}⟩)).2 ∧ _
    obtain ⟨⟨r, ctx'⟩, books', hcalm, hrun⟩ := Program.Obeys.serve_unawaited hfaults (hundo faults ctx) books
    rw [run_served_compensate hcompensate hcalm]
    exact ⟨(ctx', ⟨books', faults⟩), run_served_compensate hcompensate hrun, rfl, hfaults⟩

end Missions
