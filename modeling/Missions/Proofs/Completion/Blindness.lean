import Missions.Proofs.Completion.Footprint
import Missions.Proofs.Ledger.Views
import Missions.Proofs.Saga.Transport

/-! What a completion does before it shares does not show whether it will share. -/

namespace Missions

def Context.unsharing : Reading (Program Context) (Program Context) Context Context where
  view := unshared
  read := Program.seen unshared
  read_pure _ _ := rfl
  read_bind := Program.seen_bind unshared

namespace Procedure

variable {α β : Type}

def Blind (p : Procedure α) : Prop := ∀ ctx, (p.run.run ctx).seen Context.unshared = p.run.run ctx.unshared

theorem Blind.bind {p : Procedure α} {f : α → Procedure β} (hp : Blind p) (hf : ∀ a, Blind (f a)) :
    Blind (p >>= f) := by
  intro ctx
  rw [run_bind, run_bind, ← hp ctx]
  refine Program.seen_bind _ _ fun r ctx => ?_
  cases r with
  | ok a => exact hf a ctx
  | error e => rfl

theorem blind_get_bind {f : Context → Procedure β} (hsame : ∀ ctx, f ctx.unshared = f ctx) (hf : ∀ ctx, Blind (f ctx)) :
    Blind (get >>= f) := by
  intro ctx
  change ((f ctx).run.run ctx).seen _ = (f ctx.unshared).run.run ctx.unshared
  rw [hsame]
  exact hf ctx ctx

theorem Blind.outcome {p : Procedure α} (hp : Blind p) : Blind (outcome p) := by
  intro ctx
  rw [run_outcome, run_outcome, ← hp ctx]
  exact Program.seen_bind _ _ fun _ _ => rfl

theorem Confined.blind {catches : Bool} {methods : Method → Bool} {changes : Context → Context → Prop}
    {p : Procedure α} (h : Confined Context.unshared catches methods changes p) : Blind p := by
  induction h with
  | pure | throw | ask | query => exact fun _ => rfl
  | get_bind hsame _ ih => exact blind_get_bind hsame ih
  | modify _ hview =>
    intro ctx
    rw [run_modify, run_modify, Program.seen, hview]
  | bind _ _ ihp ihf => exact ihp.bind ihf
  | outcome _ _ ih => exact ih.outcome

theorem Blind.settle {doing : String} {rejects : CompletionError → Bool} {body : Procedure Success} (h : Blind body)
    (ctx : Context) : ((settle doing rejects body).run ctx).seen Context.unshared =
      (Procedure.settle doing rejects body).run ctx.unshared := by
  rw [run_settle, run_settle, ← h ctx]
  refine Program.seen_bind _ _ fun r ctx => ?_
  cases r <;> rfl

end Procedure

open Procedure

theorem Operation.reads_unshared :
    ∀ step ∈ [Loading.step, UserReward.step, Advance.step, Closing.step, GuildReward.step],
      step.Reads Context.unsharing step := by
  have hreads {step : CompletionStep} {doing doing' : String} {rejects rejects' : CompletionError → Bool}
      {body undo : Procedure Success} (hexecute : step.execute = settle doing rejects body)
      (hcompensate : step.compensate = settle doing' rejects' undo)
      (happlies : ∀ ctx : Context, step.applies ctx = step.applies ctx.unshared) (hbody : Blind body)
      (hundo : Blind undo) : step.Reads Context.unsharing step :=
    ⟨rfl, rfl, rfl, happlies, fun ctx => hexecute ▸ hbody.settle ctx, fun ctx => hcompensate ▸ hundo.settle ctx⟩
  simp only [List.forall_mem_cons, List.not_mem_nil, false_imp_iff, implies_true, and_true]
  exact ⟨hreads rfl Loading.compensate_eq_settle (fun _ => rfl) Loading.confined_load.blind fun _ => rfl,
    hreads rfl rfl (fun _ => rfl) UserReward.confined_grant.blind UserReward.confined_revert.blind,
    hreads rfl rfl (fun _ => rfl) Advance.confined_update.blind Advance.confined_revert.blind,
    hreads rfl rfl (fun _ => rfl) Closing.confined_close.blind Closing.confined_revert.blind,
    hreads rfl rfl (fun _ => rfl) GuildReward.confined_grant.blind GuildReward.confined_revert.blind⟩

end Missions
