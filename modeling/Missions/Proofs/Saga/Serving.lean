import Missions.Proofs.Ledger.Protocol
import Missions.Proofs.Saga.Transport

namespace Missions

variable {σ S G ε π α : Type}

namespace Program

/-- A program with its calls served: what it comes to, and the state in which it leaves the server. -/
def served (server : Server S) (x : Program σ (α × σ)) (w : S) : Id (α × (σ × S)) :=
  pure (((x.serve server).run w).1.1, (((x.serve server).run w).1.2, ((x.serve server).run w).2))

theorem serve_of_served {server : Server S} {x : Program σ (α × σ)} {w w' : S} {a : α} {s : σ}
    (h : x.served server w = pure (a, (s, w'))) : (x.serve server).run w = ((a, s), w') := by
  obtain ⟨hvalue, hrest⟩ := Prod.mk.inj h
  obtain ⟨hstate, hserver⟩ := Prod.mk.inj hrest
  exact Prod.ext (Prod.ext hvalue hstate) hserver

/-- What a program comes to under a protocol, it comes to when it is served, and the server stays in good states. -/
theorem Obeys.served {P : Protocol σ G} {Q : α × σ → G → Prop} {x : Program σ (α × σ)} {server : Server S}
    {view : S → G} {good : S → Prop} (hserver : P.Governs server view good) {w : S} (hw : good w)
    (h : x.Obeys P Q (view w)) :
    ∃ a s w', x.served server w = pure (a, (s, w')) ∧ Q (a, s) (view w') ∧ good w' := by
  refine ⟨_, _, _, rfl, Obeys.serve hserver hw h, ?_⟩
  induction x generalizing w with
  | done r => exact hw
  | call here c next ih =>
    obtain ⟨hanswered, hgood⟩ := hserver here c w hw
    exact ih _ hgood (h.2 _ _ hanswered)

end Program

def Server.threading (server : Server S) (σ : Type) : Threading (Program σ) Id σ S (σ × S) where
  view s w := (s, w)
  read x w := x.served server w
  read_pure _ _ _ := rfl
  read_bind x f f' h w := by
    rw [Program.served, Program.run_serve_bind]
    exact h _ _ _

def Step.served (server : Server S) (step : Step σ (Program σ) ε π) : Step (σ × S) Id ε π where
  name := step.name
  execute := fun s => (step.execute.run s.1).served server s.2
  compensate := fun s => (step.compensate.run s.1).served server s.2
  undoing := step.undoing
  mandatory := step.mandatory
  applies := fun s => step.applies s.1
  retry := step.retry

theorem Step.served_threads (server : Server S) (step : Step σ (Program σ) ε π) :
    step.Threads (server.threading σ) (step.served server) where
  name := rfl
  undoing := rfl
  mandatory := rfl
  applies _ _ := rfl
  execute _ _ := rfl
  compensate _ _ := rfl

def Saga.served (server : Server S) (saga : Saga σ (Program σ) ε π) : Saga (σ × S) Id ε π where
  steps := saga.steps.map (Step.served server)
  overrides := saga.overrides
  steps_ne_nil := by simp [saga.steps_ne_nil]

theorem Saga.run_served (server : Server S) (saga : Saga σ (Program σ) ε π) (s : σ) (w : S) :
    (saga.served server).run.run.run (s, w) = (saga.run.run.run s).served server w := by
  have hsteps : List.Forall₂ (fun step step' => step.Threads (server.threading σ) step' ∧
      saga.policyFor step = (saga.served server).policyFor step') saga.steps (saga.served server).steps :=
    List.forall₂_map_right_iff.2 (List.forall₂_same.2 fun step _ => ⟨step.served_threads server, rfl⟩)
  exact (Run.thread_visit hsteps s w).symm

theorem Saga.serve_of_served {server : Server S} {saga : Saga σ (Program σ) ε π} {s : σ} {w : S}
    {r : Except Interruption (Run ε)} {t : σ × S} (h : (saga.served server).run.run.run (s, w) = pure (r, t)) :
    ((saga.run.run.run s).serve server).run w = ((r, t.1), t.2) := by
  rw [Saga.run_served] at h
  exact Program.serve_of_served h

end Missions
