import Missions.Proofs.Saga.Passage

/-! When every step can be taken back, an aborted run ends where it began: a visit of steps has itself undone what the
visited steps did, and the step before it finds the state that its own success had left. -/

namespace Missions

variable {σ ε π : Type}

/-- A step whose failure leaves the state alone, and whose success its compensation takes back, with success. -/
structure Step.Undoes (step : Step σ Id ε π) : Prop where
  failed : ∀ s, (step.execute.run s).1.isSuccess = false → (step.execute.run s).2 = s
  compensated : ∀ s, (step.execute.run s).1.isSuccess = true →
    (step.compensate.run (step.execute.run s).2).1.isSuccess = true
  restored : ∀ s, (step.execute.run s).1.isSuccess = true →
    (step.compensate.run (step.execute.run s).2).2 = s

namespace Run

def FullyUndone (aborted : Aborted ε) : Prop := ∃ step message cause, aborted = .undone step message cause

/-- If the run was aborted, then fully, and in a state where `B` holds. -/
def BackAt (B : σ → Prop) (run : Run ε) (s : σ) (_ : Unit) : Prop :=
  ∀ aborted, run.result = .error aborted → FullyUndone aborted ∧ B s

/-- Where the tries of a step have led: a success can be taken back to `origin`, a failure has left it. -/
def Retraceable (step : Step σ Id ε π) (origin : σ) (tries : Tries ε π) (s : σ) (_ : Unit) : Prop :=
  if tries.result.isSuccess then
    (step.compensate.run s).1.isSuccess = true ∧ (step.compensate.run s).2 = origin
  else s = origin

theorem retraceable_of_undoes {step : Step σ Id ε π} (h : step.Undoes) (origin : σ) (attempts : Nat) :
    Retraceable step origin ⟨attempts, (step.execute.run origin).1⟩ (step.execute.run origin).2 () := by
  unfold Retraceable
  cases hok : (step.execute.run origin).1.isSuccess with
  | true => exact ⟨h.compensated origin hok, h.restored origin hok⟩
  | false => exact h.failed origin hok

theorem attempted_retraceable {step : Step σ Id ε π} (h : step.Undoes) (retries : Nat) (origin : σ) :
    Logic.plain.Obeys ((attempt step.execute retries 0).run.run origin)
      (Attempted (Retraceable step origin) retries) () := by
  refine attempted_all (J := fun _ s _ => s = origin) ?_ retries rfl
  intro made s g hs
  subst hs
  refine ⟨fun hretry => h.failed s ?_, retraceable_of_undoes h s (made + 1)⟩
  change (step.execute.run s).1.isRetryable = true at hretry
  cases hresult : (step.execute.run s).1 with
  | success => rw [hresult] at hretry; cases hretry
  | transient => rfl
  | rejected => rfl

theorem backAt_skipping {B : σ → Prop} {name : String} {run : Run ε} {s : σ} {g : Unit} (h : BackAt B run s g) :
    BackAt B (run.skipping name) s g := by
  intro aborted haborted
  obtain ⟨result | _, audit⟩ := run
  · exact h aborted haborted
  · cases haborted

theorem backAt_passingOver {B : σ → Prop} {name : String} {tries : Tries ε π} {run : Run ε} {s : σ} {g : Unit}
    (h : BackAt B run s g) : BackAt B (run.passingOver name tries) s g := by
  intro aborted haborted
  obtain ⟨result | _, audit⟩ := run
  · exact h aborted haborted
  · cases haborted

theorem backAt_stopped {B : σ → Prop} {name : String} {tries : Tries ε π} {s : σ} {g : Unit} (h : B s) :
    BackAt B (.stopped name tries) s g := by
  intro aborted haborted
  cases haborted
  exact ⟨⟨_, _, _, rfl⟩, h⟩

theorem backAt_closing {step : Step σ Id ε π} {origin : σ} {tries : Tries ε π} {run : Run ε} {s : σ}
    (hok : tries.result.isSuccess = true) (h : BackAt (fun s => Retraceable step origin tries s ()) run s ()) :
    Logic.plain.Obeys ((closing step tries run).run s) (fun r g => BackAt (· = origin) r.1 r.2 g) () := by
  intro aborted' haborted'
  obtain ⟨aborted | report, audit⟩ := run
  · obtain ⟨⟨name, message, cause, hundone⟩, hback⟩ := h aborted rfl
    rw [Retraceable, if_pos hok] at hback
    have hafter : aborted' = aborted.afterUndo step.name step.undoing (step.compensate.run s).1 := by
      cases haborted'
      rfl
    refine ⟨⟨name, message, cause, ?_⟩, hback.2⟩
    rw [hafter, Aborted.afterUndo, if_pos hback.1, hundone]
  · cases haborted'

theorem passes_backAt {policy : Step σ Id ε π → RetryPolicy} (steps : List (Step σ Id ε π))
    (hundoes : ∀ step ∈ steps, step.Undoes) (origin : σ) :
    Passes .plain policy steps (fun s _ => s = origin) (BackAt (· = origin)) := by
  -- the later steps begin where the success of this one has led, and come back there
  induction steps generalizing origin with
  | nil =>
    refine Passes.nil fun s g hs aborted haborted => ?_
    cases haborted
  | cons step rest ih =>
    have hstep := hundoes step List.mem_cons_self
    have ih := ih fun step' hstep' => hundoes step' (List.mem_cons_of_mem step hstep')
    cases happlies : step.applies origin with
    | false =>
      have hskip : ∀ (s : σ) (g : Unit), s = origin → step.applies s = false := by
        intro s g hs
        rw [hs, happlies]
      exact .skip hskip ((ih origin).mono (fun _ _ => id) fun _ _ _ => backAt_skipping)
    | true =>
      have happly : ∀ (s : σ) (g : Unit), s = origin → step.applies s = true := by
        intro s g hs
        rw [hs, happlies]
      refine .apply (T := Retraceable step origin)
        (V := fun tries => BackAt fun s => Retraceable step origin tries s ()) happly ?_ ?_ ?_ ?_ ?_
      · intro s g hs
        rw [hs]
        exact attempted_retraceable hstep _ origin
      · intro tries hok s g htries
        refine (ih s).mono (fun _ _ => id) (fun run s' _ h aborted haborted => ?_) s g rfl
        obtain ⟨hundone, rfl⟩ := h aborted haborted
        exact ⟨hundone, htries⟩
      · intro tries run s g hok h
        exact backAt_closing hok h
      · intro tries s g hfailed hlasts htries
        rw [Retraceable, hfailed] at htries
        exact backAt_stopped htries
      · intro tries hfailed hpasses
        refine (ih origin).mono (fun s g htries => ?_) fun _ _ _ => backAt_passingOver
        rwa [Retraceable, hfailed] at htries

end Run

/-- When every step can be taken back, an aborted run has been undone in full and ends in the state in which it
began. -/
theorem Saga.run_undone (saga : Saga σ Id ε π)
    (hretries : ∀ step ∈ saga.steps, (saga.policyFor step).maxRetries.toNat < attemptCounterMax)
    (hundoes : ∀ step ∈ saga.steps, step.Undoes) (s : σ) :
    ∃ (run : Run ε) (s' : σ), saga.run.run.run s = pure (.ok run, s') ∧
      ∀ aborted, run.result = .error aborted →
        (∃ step message cause, aborted = .undone step message cause) ∧ s' = s :=
  (Run.passes_backAt saga.steps hundoes s).run hretries rfl

/-- A deposit, a bonus that does not apply, a notice that fails for good, interest that doubles the balance, and a
payment that is refused. -/
def Run.purchase : Saga Nat Id String Unit where
  steps :=
    [{ name := "deposit", execute := fun n => (.success "deposited" none, n + 10)
       compensate := fun n => (.success "withdrawn" none, n - 10) },
      { name := "bonus", applies := fun n => n < 10, execute := fun n => (.success "credited" none, n + 1)
        compensate := fun n => (.success "debited" none, n - 1) },
      { name := "notice", mandatory := false, retry := .fixed 2 0, execute := fun n => (.transient "offline" none, n) },
      { name := "interest", execute := fun n => (.success "doubled" none, 2 * n)
        compensate := fun n => (.success "halved" none, n / 2) },
      { name := "payment", retry := .fixed 5 0, execute := fun n => (.rejected "refused" "card expired", n) }]
  overrides := ∅
  steps_ne_nil := by simp

theorem Saga.run_undone_purchase :
    ∃ run : Run String, Run.purchase.run.run.run 5 = pure (.ok run, 5) ∧
      run.result = .error (.undone "payment" "refused" (some "card expired")) := by
  have hretries : ∀ step ∈ Run.purchase.steps,
      (Run.purchase.policyFor step).maxRetries.toNat < attemptCounterMax := by decide
  have hundoes : ∀ step ∈ Run.purchase.steps, step.Undoes := by
    intro step hstep
    simp only [Run.purchase, List.mem_cons, List.not_mem_nil, or_false] at hstep
    rcases hstep with rfl | rfl | rfl | rfl | rfl
    · exact ⟨fun s h => (by cases h), fun s _ => rfl, fun s _ => Nat.add_sub_cancel s 10⟩
    · exact ⟨fun s h => (by cases h), fun s _ => rfl, fun s _ => Nat.add_sub_cancel s 1⟩
    · exact ⟨fun s _ => rfl, fun s h => (by cases h), fun s h => (by cases h)⟩
    · exact ⟨fun s h => (by cases h), fun s _ => rfl, fun s _ => Nat.mul_div_cancel_left s (by decide)⟩
    · exact ⟨fun s _ => rfl, fun s h => (by cases h), fun s h => (by cases h)⟩
  obtain ⟨run, s, hrun, hback⟩ := Run.purchase.run_undone hretries hundoes 5
  have hresult : run.result = .error (.undone "payment" "refused" (some "card expired")) := by
    cases hrun
    rfl
  obtain ⟨-, rfl⟩ := hback _ hresult
  exact ⟨run, hrun, hresult⟩

end Missions
