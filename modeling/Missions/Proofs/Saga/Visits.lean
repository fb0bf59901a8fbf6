import Missions.Proofs.Ledger.Protocol
import Missions.Proofs.Saga.Passage

/-! A visit of steps under a protocol has three conditions: what holds when it begins, when it comes to its end, and
when it comes back aborted. -/

namespace Missions

def Protocol.logic {σ G : Type} (P : Protocol σ G) : Logic (Program σ) G where
  Obeys x Q g := x.Obeys P Q g
  ret h := h
  bind h := Program.obeys_bind.2 h
  mono h hQ := h.mono hQ

namespace Run

variable {σ ε π G : Type} {P : Protocol σ G} {policy : Step σ (Program σ) ε π → RetryPolicy}

/-- How a run ends: at its end with `D`, aborted with `U`, or interrupted. -/
def Ends (D : σ → G → Prop) (U : Aborted ε → σ → G → Prop) (interrupted : Prop) (r : Except Interruption (Run ε) × σ)
    (g : G) : Prop :=
  match r.1 with
  | .ok run =>
    match run.result with
    | .ok _ => D r.2 g
    | .error aborted => U aborted r.2 g
  | .error _ => interrupted

def Closes (D : σ → G → Prop) (U : Aborted ε → σ → G → Prop) (run : Run ε) (s : σ) (g : G) : Prop :=
  Ends D U False (.ok run, s) g

theorem closes_skipping {D : σ → G → Prop} {U : Aborted ε → σ → G → Prop} {name : String} {run : Run ε} {s : σ}
    {g : G} : Closes D U (run.skipping name) s g ↔ Closes D U run s g := by
  obtain ⟨_ | _, _⟩ := run <;> rfl

theorem closes_passingOver {D : σ → G → Prop} {U : Aborted ε → σ → G → Prop} {name : String} {tries : Tries ε π}
    {run : Run ε} {s : σ} {g : G} : Closes D U (run.passingOver name tries) s g ↔ Closes D U run s g := by
  obtain ⟨_ | _, _⟩ := run <;> rfl

/-- A visit that begins in `I` ends in `D`, or comes back aborted in `U`, unless the attempts of one of the steps cannot
be counted. -/
def Visits (P : Protocol σ G) (policy : Step σ (Program σ) ε π → RetryPolicy) (steps : List (Step σ (Program σ) ε π))
    (I D : σ → G → Prop) (U : Aborted ε → σ → G → Prop) : Prop :=
  ∀ s g, I s g → ((visit policy steps).run.run s).Obeys P
    (Ends D U (∃ step ∈ steps, attemptCounterMax ≤ (policy step).maxRetries.toNat)) g

variable {step : Step σ (Program σ) ε π} {rest : List (Step σ (Program σ) ε π)}
variable {I K J D : σ → G → Prop} {U V : Aborted ε → σ → G → Prop}

theorem visits_iff {steps : List (Step σ (Program σ) ε π)} :
    Visits P policy steps I D U ↔ Passes P.logic policy steps I (Closes D U) := Iff.rfl

theorem Visits.mono {I₀ D₀ : σ → G → Prop} {U₀ : Aborted ε → σ → G → Prop} {steps : List (Step σ (Program σ) ε π)}
    (h : Visits P policy steps I D U) (hI : ∀ s g, I₀ s g → I s g) (hD : ∀ s g, D s g → D₀ s g)
    (hU : ∀ a s g, U a s g → U₀ a s g) : Visits P policy steps I₀ D₀ U₀ := by
  refine visits_iff.2 ((visits_iff.1 h).mono hI fun run s g hr => ?_)
  obtain ⟨aborted | _, _⟩ := run
  · exact hU aborted s g hr
  · exact hD s g hr

theorem Visits.exists {ι : Type} {steps : List (Step σ (Program σ) ε π)} {I : ι → σ → G → Prop}
    (h : ∀ i, Visits P policy steps (I i) D U) : Visits P policy steps (fun s g => ∃ i, I i s g) D U :=
  fun s g ⟨i, hI⟩ => h i s g hI

theorem Visits.of_keeps {K : σ → G → Prop} {steps : List (Step σ (Program σ) ε π)}
    (h : ∀ step ∈ steps, Keeps P.logic K step) : Visits P policy steps K K fun _ => K := by
  refine visits_iff.2 ((passes_of_keeps h).mono (fun _ _ => id) fun run s g hK => ?_)
  obtain ⟨_ | _, _⟩ := run <;> exact hK

theorem Visits.nil (h : ∀ s g, I s g → D s g) : Visits P policy [] I D U := fun s g hI => h s g hI

theorem Visits.skip (hskip : ∀ s g, I s g → step.applies s = false) (hrest : Visits P policy rest I D U) :
    Visits P policy (step :: rest) I D U :=
  visits_iff.2 (.skip hskip ((visits_iff.1 hrest).mono (fun _ _ => id) fun _ _ _ => closes_skipping.2))

/-- A step that applies. `T` is what its execution comes to, `K` where it leaves a run that goes on after its success,
`J` one that goes on without it. -/
theorem Visits.apply {T : StepResult ε π → σ → G → Prop} (happlies : ∀ s g, I s g → step.applies s = true)
    (hexecute : ∀ s g, I s g → (step.execute.run s).Obeys P (fun r g => T r.1 r.2 g) g)
    (hagain : ∀ result s g, result.isRetryable → T result s g → I s g)
    (hsuccess : ∀ result s g, result.isSuccess → T result s g → K s g)
    (hrest : Visits P policy rest K D V)
    (hundo : ∀ a s g, V a s g → (step.compensate.run s).Obeys P
      (fun r g => U (a.afterUndo step.name step.undoing r.1) r.2 g) g)
    (hstop : ∀ result s g, result.isSuccess = false → (step.mandatory || result.isRejected) = true → T result s g →
      U (.undone step.name result.message result.cause) s g)
    (hpass : ∀ result s g, result.isSuccess = false → (step.mandatory || result.isRejected) = false → T result s g →
      J s g)
    (hpassed : Visits P policy rest J D U) : Visits P policy (step :: rest) I D U := by
  refine visits_iff.2 (Passes.apply (T := fun tries => T tries.result) (V := fun _ => Closes D V) happlies ?_ ?_ ?_
    ?_ ?_)
  · intro s g hI
    refine attempted_all (L := P.logic) (J := fun _ => I) (fun _ s g hI => ?_) (policy step).maxRetries.toNat hI
    exact (hexecute s g hI).mono fun r g hT => ⟨fun hretry => hagain r.1 r.2 g hretry hT, hT⟩
  · exact fun tries hok => (visits_iff.1 hrest).mono (fun s g hT => hsuccess _ s g hok hT) fun _ _ _ => id
  · rintro tries ⟨aborted | report, audit⟩ s g - hr
    · rw [closing, StateT.run_bind]
      exact Program.obeys_bind.2 (hundo aborted s g hr)
    · exact hr
  · exact fun tries s g hfailed hlasts hT => hstop _ s g hfailed hlasts hT
  · exact fun tries hfailed hpasses => (visits_iff.1 hpassed).mono
      (fun s g hT => hpass _ s g hfailed hpasses hT) fun _ _ _ => closes_passingOver.2

end Run

end Missions
