import Missions.Proofs.Completion.Contract
import Missions.Proofs.Saga.Visits

namespace Missions

namespace Procedure

variable {G α : Type} {P : Protocol Context G}

def Either (S : Context → G → Prop) (F : CompletionError → Context → G → Prop) :
    Except CompletionError α → Context → G → Prop
  | .ok _ => S
  | .error e => F e

/-- A settled procedure reports success in `S`, or an error that is its cause in `F`. -/
def Settled (rejects : CompletionError → Bool) (S : Context → G → Prop) (F : CompletionError → Context → G → Prop) :
    CompletionResult → Context → G → Prop
  | .success .. => S
  | .transient _ cause => fun ctx g => ∃ e, cause = some e ∧ rejects e = false ∧ F e ctx g
  | .rejected _ e => fun ctx g => rejects e = true ∧ F e ctx g

theorem Meets.settle {doing : String} {rejects : CompletionError → Bool} {body : Procedure Success}
    {S : Context → G → Prop} {F : CompletionError → Context → G → Prop} {ctx : Context} {g : G}
    (h : body.Meets P (Either S F) ctx g) :
    ((settle doing rejects body).run ctx).Obeys P (fun r g => Settled rejects S F r.1 r.2 g) g := by
  refine obeys_settle.2 (Meets.mono h fun r ctx g hr => ?_)
  cases r with
  | ok => exact hr
  | error e =>
    dsimp only
    split
    · next hrejects => exact ⟨hrejects, hr⟩
    · next hpasses => exact ⟨e, rfl, Bool.not_eq_true _ ▸ hpasses, hr⟩

section

variable {rejects : CompletionError → Bool} {S : Context → G → Prop} {F : CompletionError → Context → G → Prop}
variable {result : CompletionResult} {ctx : Context} {g : G}

theorem Settled.of_isSuccess (h : Settled rejects S F result ctx g) (hok : result.isSuccess) : S ctx g := by
  cases result with
  | success => exact h
  | transient | rejected => exact absurd hok (by simp [StepResult.isSuccess])

theorem Settled.of_isRetryable (h : Settled rejects S F result ctx g) (hretry : result.isRetryable) :
    ∃ e, rejects e = false ∧ F e ctx g := by
  cases result with
  | transient _ cause =>
    obtain ⟨e, -, he⟩ := h
    exact ⟨e, he⟩
  | success | rejected => exact absurd hretry (by simp [StepResult.isRetryable])

theorem Settled.of_failed (h : Settled rejects S F result ctx g) (hfailed : result.isSuccess = false) :
    ∃ e, result.cause = some e ∧ result.isRejected = rejects e ∧ F e ctx g := by
  cases result with
  | success => exact absurd hfailed (by simp [StepResult.isSuccess])
  | transient _ cause =>
    obtain ⟨e, rfl, hpasses, hF⟩ := h
    exact ⟨e, rfl, hpasses.symm, hF⟩
  | rejected _ e => exact ⟨e, rfl, h.1.symm, h.2⟩

end

end Procedure

namespace Completion

open Procedure

variable {G : Type} {P : Protocol Context G} {policy : CompletionStep → RetryPolicy}
variable {step : CompletionStep} {rest : List CompletionStep}

/-- An aborted run, told by what could not be undone and by why it was stopped. -/
def Undone (U : List String → Option CompletionError → Context → G → Prop) (a : Aborted CompletionError) :
    Context → G → Prop :=
  U (a.undoFailures.map (·.step)) a.cause

/-- Compensation that succeeds leaves the tale of an aborted run as it was, and compensation that fails adds the
step's name to it. -/
theorem Undone.compensate {doing : String} {rejects : CompletionError → Bool} {undo : Procedure Success}
    {U V : List String → Option CompletionError → Context → G → Prop}
    (hundo : ∀ names cause ctx g, V names cause ctx g →
      undo.Meets P (Either (U names cause) fun _ => U (names ++ [step.name]) cause) ctx g)
    {a : Aborted CompletionError} {ctx : Context} {g : G} (h : Undone V a ctx g) :
    ((settle doing rejects undo).run ctx).Obeys P
      (fun r g => Undone U (a.afterUndo step.name step.undoing r.1) r.2 g) g := by
  refine Program.Obeys.mono (hundo _ _ ctx g h).settle fun r g hr => ?_
  rw [Undone, Aborted.cause_afterUndo, Aborted.undoFailures_afterUndo]
  obtain ⟨message | message | message, ctx⟩ := r
  · exact hr
  · obtain ⟨e, -, -, hr⟩ := hr
    simpa [StepResult.isSuccess] using hr
  · simpa [StepResult.isSuccess] using hr.2

theorem visits_settled {doing doing' : String} {rejects rejects' : CompletionError → Bool}
    {body undo : Procedure Success} (hmandatory : step.mandatory = true)
    (hexecute : step.execute = settle doing rejects body) (hcompensate : step.compensate = settle doing' rejects' undo)
    {I S D : Context → G → Prop} {F : CompletionError → Context → G → Prop}
    {U V : List String → Option CompletionError → Context → G → Prop}
    (happlies : ∀ ctx g, I ctx g → step.applies ctx = true)
    (hbody : ∀ ctx g, I ctx g → body.Meets P (Either S F) ctx g)
    (hagain : ∀ e ctx g, rejects e = false → F e ctx g → I ctx g)
    (hrest : Run.Visits P policy rest S D (Undone V))
    (hundo : ∀ names cause ctx g, V names cause ctx g →
      undo.Meets P (Either (U names cause) fun _ => U (names ++ [step.name]) cause) ctx g)
    (hstop : ∀ e ctx g, F e ctx g → U [] (some e) ctx g) :
    Run.Visits P policy (step :: rest) I D (Undone U) := by
  refine Run.Visits.apply (T := Settled rejects S F) happlies ?_ ?_ ?_ hrest ?_ ?_ ?_
    (J := fun _ _ => False) (fun _ _ h => h.elim)
  · intro ctx g hI
    rw [hexecute]
    exact (hbody ctx g hI).settle
  · intro result ctx g hretry hT
    obtain ⟨e, hpasses, hF⟩ := hT.of_isRetryable hretry
    exact hagain e ctx g hpasses hF
  · exact fun result ctx g hok hT => hT.of_isSuccess hok
  · intro a ctx g hU
    rw [hcompensate]
    exact Undone.compensate hundo hU
  · intro result ctx g hfailed _ hT
    obtain ⟨e, hcause, -, hF⟩ := hT.of_failed hfailed
    rw [hcause]
    exact hstop e ctx g hF
  · intro result ctx g _ hlasts
    simp [hmandatory] at hlasts

/-- A last step that is optional and never rejects does not stop a run, if it leaves what holds as it is. -/
theorem visits_passing {doing : String} {body : Procedure Success} (hoptional : step.mandatory = false)
    (hexecute : step.execute = settle doing neverRejects body) {I : Context → G → Prop}
    (happlies : ∀ ctx g, I ctx g → step.applies ctx = true)
    (hbody : ∀ ctx g, I ctx g → body.Meets P (fun _ => I) ctx g) {U : Aborted CompletionError → Context → G → Prop} :
    Run.Visits P policy [step] I I U := by
  refine Run.Visits.apply (T := Settled neverRejects I fun _ => I) happlies ?_ ?_ ?_ (.nil fun _ _ h => h)
    (V := fun _ _ _ => False) (fun _ _ _ h => h.elim) ?_ ?_ (.nil fun _ _ h => h)
  · intro ctx g h
    rw [hexecute]
    refine ((hbody ctx g h).mono fun result ctx g h => ?_).settle
    cases result <;> exact h
  · intro result ctx g hretry h
    obtain ⟨e, -, h⟩ := h.of_isRetryable hretry
    exact h
  · exact fun result ctx g hok h => h.of_isSuccess hok
  · intro result ctx g hfailed hlasts h
    obtain ⟨e, -, hrejected, -⟩ := h.of_failed hfailed
    simp [hoptional, hrejected, neverRejects] at hlasts
  · intro result ctx g hfailed _ h
    obtain ⟨e, -, -, h⟩ := h.of_failed hfailed
    exact h

end Completion

end Missions
