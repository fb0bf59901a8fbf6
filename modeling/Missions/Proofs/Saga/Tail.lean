import Missions.Proofs.Ledger.Protocol
import Missions.Proofs.Saga.Unfolding

/-! The last steps of a run may be such that they never abort it, because they are optional and never reject. Then the
run is that of the steps before them, with their own run put behind it if that one came to its end. -/

namespace Missions

/-- Calls of a kind may be made, and any answer may come. -/
def Protocol.calling (σ : Type) (kind : Call → Prop) : Protocol σ Unit where
  allowed _ _ c := kind c
  answered _ _ _ _ _ := True

namespace Program

variable {σ α β : Type}

theorem Obeys.calling {kind kind' : Call → Prop} (hkind : ∀ c, kind c → kind' c) {p : Program σ α}
    {Q : α → Unit → Prop} (h : p.Obeys (.calling σ kind) Q ()) : p.Obeys (.calling σ kind') Q () := by
  induction p with
  | done a => exact h
  | call here c next ih => exact ⟨hkind c h.1, fun answer g hanswer => ih answer (h.2 answer g hanswer)⟩

theorem Obeys.serve_calling {S : Type} {kind : Call → Prop} {p : Program σ α} {Q : α → Unit → Prop}
    (h : p.Obeys (.calling σ kind) Q ()) (server : Server S) (s : S) : Q ((p.serve server).run s).1 () := by
  have hgoverns : (Protocol.calling σ kind).Governs server (fun _ => ()) fun _ => True :=
    fun _ _ _ _ => ⟨trivial, trivial⟩
  exact h.serve hgoverns trivial

theorem bind_congr {p : Program σ α} {f g : α → Program σ β}
    (h : p.Obeys (.calling σ fun _ => True) (fun a _ => f a = g a) ()) : p >>= f = p >>= g := by
  induction p with
  | done a => exact h
  | call here c next ih =>
    rw [call_bind, call_bind]
    congr 1
    funext answer
    exact ih answer (h.2 answer () trivial)

end Program

variable {σ ε π : Type}

def Report.append (first last : Report ε) : Report ε where
  executed := first.executed ++ last.executed
  skipped := first.skipped ++ last.skipped
  optionalFailures := first.optionalFailures ++ last.optionalFailures

namespace Run

/-- Puts the run of later steps behind a run, if both came to their ends. -/
def append (run tail : Run ε) : Run ε :=
  match run.result, tail.result with
  | .ok first, .ok last => ⟨.ok (first.append last), ⟨run.audit.records ++ tail.audit.records⟩⟩
  | _, _ => run

theorem ended_append {tail : Run ε} (h : tail.result.isOk = true) : ended.append tail = tail := by
  obtain ⟨_ | _, _⟩ := tail
  · cases h
  · rfl

theorem append_skipping (name : String) (run tail : Run ε) :
    (run.skipping name).append tail = (run.append tail).skipping name := by
  obtain ⟨_ | _, _⟩ := run <;> obtain ⟨_ | _, _⟩ := tail <;> rfl

theorem append_passingOver (name : String) (tries : Tries ε π) (run tail : Run ε) :
    (run.passingOver name tries).append tail = (run.append tail).passingOver name tries := by
  obtain ⟨_ | _, _⟩ := run <;> obtain ⟨_ | _, _⟩ := tail <;> rfl

theorem resume_resume {m : Type → Type} [Monad m] [LawfulMonad m] {α β γ : Type}
    (x : m (Except Interruption α × σ)) (f : α → σ → m (Except Interruption β × σ))
    (g : β → σ → m (Except Interruption γ × σ)) :
    x >>= resume f >>= resume g = x >>= resume fun a s => f a s >>= resume g := by
  rw [bind_assoc]
  congr 1
  funext ⟨r, s⟩
  cases r with
  | ok a => rfl
  | error i => exact pure_bind _ _

variable {policy : Step σ (Program σ) ε π → RetryPolicy}

/-- Goes on from a run to the later steps, unless the run was aborted. -/
def followed (policy : Step σ (Program σ) ε π → RetryPolicy) (later : List (Step σ (Program σ) ε π)) (run : Run ε)
    (s : σ) : Program σ (Except Interruption (Run ε) × σ) :=
  if run.result.isOk then
    (visit policy later).run.run s >>= resume fun tail s => pure (.ok (run.append tail), s)
  else pure (.ok run, s)

/-- A visit of these steps is never aborted, whatever is answered to their calls. -/
def Passing (policy : Step σ (Program σ) ε π → RetryPolicy) (steps : List (Step σ (Program σ) ε π)) : Prop :=
  ∀ s, ((visit policy steps).run.run s).Obeys (.calling σ fun _ => True)
    (fun r _ => ∀ run, r.1 = .ok run → run.result.isOk = true) ()

variable {later : List (Step σ (Program σ) ε π)}

theorem followed_resume {f : Run ε → Run ε} (hok : ∀ run, (f run).result.isOk = run.result.isOk)
    (happend : ∀ run tail, (f run).append tail = f (run.append tail)) (run : Run ε) (s : σ) :
    followed policy later run s >>= resume (fun run s => pure (.ok (f run), s)) = followed policy later (f run) s := by
  rw [followed, followed, hok]
  split
  · rw [resume_resume]
    simp only [pure_bind, resume_ok, happend]
  · rfl

theorem followed_of_error (a : Aborted ε) (audit : AuditLog) (s : σ) :
    followed policy later ⟨.error a, audit⟩ s = pure (.ok ⟨.error a, audit⟩, s) := rfl

theorem followed_of_ok (report : Report ε) (audit : AuditLog) (s : σ) :
    followed policy later ⟨.ok report, audit⟩ s =
      (visit policy later).run.run s >>= resume fun tail s => pure (.ok (append ⟨.ok report, audit⟩ tail), s) := rfl

theorem followed_closing (step : Step σ (Program σ) ε π) (tries : Tries ε π) (run : Run ε) (s : σ) :
    (followed policy later run s >>= resume fun run s =>
      (closing step tries run).run s >>= fun r => pure (.ok r.1, r.2)) =
    ((closing step tries run).run s >>= fun r => pure (.ok r.1, r.2)) >>= resume (followed policy later) := by
  obtain ⟨aborted | report, audit⟩ := run
  · -- the later steps are not visited: an abort is still one after a compensation
    rw [followed_of_error, pure_bind, resume_ok, closing, StateT.run_bind]
    simp only [bind_assoc]
    refine congrArg _ (funext fun r => ?_)
    rfl
  · rw [followed_of_ok, resume_resume, closing]
    change _ = followed policy later ⟨.ok _, _⟩ s
    rw [followed_of_ok]
    refine congrArg _ (congrArg _ (funext fun tail => funext fun s => ?_))
    obtain ⟨_ | _, _⟩ := tail <;> rfl

theorem run_visit_append (hlater : Passing policy later) (steps : List (Step σ (Program σ) ε π)) (s : σ) :
    (visit policy (steps ++ later)).run.run s =
      (visit policy steps).run.run s >>= resume (followed policy later) := by
  induction steps generalizing s with
  | nil =>
    change _ = (visit policy later).run.run s >>= resume fun tail s => pure (.ok (append .ended tail), s)
    rw [List.nil_append]
    refine (bind_pure _).symm.trans (Program.bind_congr ((hlater s).mono fun r _ hr => ?_))
    obtain ⟨i | tail, s⟩ := r
    · rfl
    · rw [resume_ok, ended_append (hr tail rfl)]
  | cons step rest ih =>
    rw [List.cons_append]
    cases happlies : step.applies s with
    | false =>
      rw [run_visit_skip policy _ happlies, run_visit_skip policy _ happlies, ih, resume_resume, resume_resume]
      refine congrArg _ (congrArg _ (funext fun run => funext fun s => ?_))
      exact followed_resume (isOk_skipping step.name) (append_skipping step.name) run s
    | true =>
      rw [run_visit_attempt policy _ happlies, run_visit_attempt policy _ happlies, resume_resume]
      refine congrArg _ (congrArg _ (funext fun tries => funext fun s => ?_))
      split
      · rw [ih, resume_resume, resume_resume]
        exact congrArg _ (congrArg _ (funext fun run => funext fun s => followed_closing step tries run s))
      · split
        · rfl
        · rw [ih, resume_resume, resume_resume]
          refine congrArg _ (congrArg _ (funext fun run => funext fun s => ?_))
          exact followed_resume (isOk_passingOver step.name tries) (append_passingOver step.name tries) run s

end Run

end Missions
