import Missions.Proofs.Saga.Transparency

namespace Missions

/-- A report of one more step that was executed, before those that are reported. -/
def Report.executing {ε : Type} (name : String) (report : Report ε) : Report ε :=
  { report with executed := name :: report.executed }

namespace Run

variable {σ ε π G : Type} {m : Type → Type} [Monad m] {L : Logic m G} {policy : Step σ m ε π → RetryPolicy}
variable {step : Step σ m ε π} {steps rest : List (Step σ m ε π)}

/-- A visit that begins in `I` and comes to its end has reported as `D` says. -/
def Completes (L : Logic m G) (policy : Step σ m ε π → RetryPolicy) (steps : List (Step σ m ε π)) (I : σ → G → Prop)
    (D : Report ε → σ → G → Prop) : Prop :=
  Passes L policy steps I fun run s g => ∀ report, run.result = .ok report → D report s g

variable {I : σ → G → Prop} {D : Report ε → σ → G → Prop}

theorem Completes.mono {I₀ : σ → G → Prop} {D₀ : Report ε → σ → G → Prop} (h : Completes L policy steps I D)
    (hI : ∀ s g, I₀ s g → I s g) (hD : ∀ report s g, D report s g → D₀ report s g) :
    Completes L policy steps I₀ D₀ :=
  Passes.mono h hI fun _ s g hrun report hreport => hD report s g (hrun report hreport)

theorem Completes.exists {ι : Type} {I : ι → σ → G → Prop} (h : ∀ i, Completes L policy steps (I i) D) :
    Completes L policy steps (fun s g => ∃ i, I i s g) D := fun s g ⟨i, hI⟩ => h i s g hI

theorem Completes.nil (h : ∀ s g, I s g → D {} s g) : Completes L policy [] I D := by
  refine Passes.nil fun s g hI report hreport => ?_
  cases hreport
  exact h s g hI

variable [LawfulMonad m]

theorem Completes.skip (hskip : ∀ s g, I s g → step.applies s = false)
    (hrest : Completes L policy rest I fun report => D (report.skipping step.name)) :
    Completes L policy (step :: rest) I D := by
  refine Passes.skip hskip (Passes.mono hrest (fun _ _ => id) fun run s g hrun report hreport => ?_)
  obtain ⟨_ | later, audit⟩ := run
  · cases hreport
  · cases hreport
    exact hrun later rfl

/-- A step that applies. `T` is what its attempts come to; the run goes on after a success, and where the failure of an
optional step is passed over. -/
theorem Completes.apply {T : Tries ε π → σ → G → Prop} (happlies : ∀ s g, I s g → step.applies s = true)
    (htries : ∀ s g, I s g → L.Obeys ((attempt step.execute (policy step).maxRetries.toNat 0).run.run s)
      (Attempted T (policy step).maxRetries.toNat) g)
    (hundo : ∀ s g, L.Obeys (step.compensate.run s) (fun _ _ => True) g)
    (hsuccess : ∀ tries, tries.result.isSuccess = true →
      Completes L policy rest (T tries) fun report => D (report.executing step.name))
    (hpass : ∀ tries, tries.result.isSuccess = false → (step.mandatory || tries.result.isRejected) = false →
      Completes L policy rest (T tries) fun report =>
        D (report.passingOver ⟨step.name, tries.result.message, tries.result.cause⟩)) :
    Completes L policy (step :: rest) I D := by
  refine Passes.apply happlies htries hsuccess ?_ (fun _ _ _ _ _ _ _ hreport => ?_) fun tries hfailed hpasses => ?_
  · rintro tries ⟨aborted | later, audit⟩ s g - hrun
    · rw [closing, StateT.run_bind]
      refine L.bind (L.mono (hundo s g) fun undone g _ => L.ret fun report hreport => ?_)
      cases hreport
    · refine L.ret fun report hreport => ?_
      cases hreport
      exact hrun later rfl
  · cases hreport
  · refine Passes.mono (hpass tries hfailed hpasses) (fun _ _ => id) fun run s g hrun report hreport => ?_
    obtain ⟨_ | later, audit⟩ := run
    · cases hreport
    · cases hreport
      exact hrun later rfl

theorem Completes.mandatory {T : StepResult ε π → σ → G → Prop} (hmandatory : step.mandatory = true)
    (happlies : ∀ s g, I s g → step.applies s = true)
    (hexecute : ∀ s g, I s g → L.Obeys (step.execute.run s) (fun r g => T r.1 r.2 g) g)
    (hagain : ∀ result s g, result.isRetryable = true → T result s g → I s g)
    (hundo : ∀ s g, L.Obeys (step.compensate.run s) (fun _ _ => True) g)
    (hrest : ∀ result, result.isSuccess = true →
      Completes L policy rest (T result) fun report => D (report.executing step.name)) :
    Completes L policy (step :: rest) I D := by
  refine .apply (T := fun tries => T tries.result) happlies (fun s g hI => ?_) hundo (fun tries hok => hrest _ hok)
    fun tries _ hpasses => ?_
  · refine attempted_all (J := fun _ => I) (fun _ s g hI => ?_) (policy step).maxRetries.toNat hI
    exact L.mono (hexecute s g hI) fun r g hT => ⟨fun hretry => hagain r.1 r.2 g hretry hT, hT⟩
  · simp [hmandatory] at hpasses

end Run

end Missions
