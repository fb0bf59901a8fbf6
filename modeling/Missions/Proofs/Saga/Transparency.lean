import Missions.Proofs.Saga.Attempts
import Missions.Proofs.Saga.Passage
import Missions.Proofs.Saga.Tail

/-! A step that a run passes by without a trace in the state could as well be left out. What comes before such a step
stands around the run of what comes after it, so two runs that part in the middle and meet again in the same state are
treated alike by the steps before. -/

namespace Missions

variable {σ ε π : Type}

def Overrides.policyFor (overrides : Overrides) (step : Step σ Id ε π) : RetryPolicy :=
  (overrides.get? step.name).getD step.retry

theorem Saga.run_eq_visit (saga : Saga σ Id ε π) : saga.run = Run.visit saga.overrides.policyFor saga.steps := rfl

theorem Report.append_append (first middle last : Report ε) :
    (first.append middle).append last = first.append (middle.append last) := by
  simp [Report.append]

/-- A report of one more step that did not apply, before those that are reported. -/
def Report.skipping (name : String) (report : Report ε) : Report ε :=
  { report with skipped := name :: report.skipped }

/-- A report of one more optional step that failed, before those that are reported. -/
def Report.passingOver (failure : OptionalFailure ε) (report : Report ε) : Report ε :=
  { report with optionalFailures := failure :: report.optionalFailures }

namespace Run

/-! ### What stands around a run -/

/-- What goes on from a run puts one record before it, and a report before its report. An abort goes on as the state
and the abort alone determine. -/
structure Frames (head : Report ε) (frame : Run ε → σ → Id (Except Interruption (Run ε) × σ)) : Prop where
  completed : ∃ record, ∀ report audit s,
    frame ⟨.ok report, audit⟩ s = pure (.ok ⟨.ok (head.append report), audit.cons record⟩, s)
  aborted : ∀ aborted s, ∃ aborted' record s', ∀ audit,
    frame ⟨.error aborted, audit⟩ s = pure (.ok ⟨.error aborted', audit.cons record⟩, s')

theorem frames_skipping (name : String) :
    Frames (σ := σ) { skipped := [name] } fun run s => pure (.ok (skipping (ε := ε) name run), s) where
  completed := ⟨_, fun _ _ _ => rfl⟩
  aborted _ _ := ⟨_, _, _, fun _ => rfl⟩

theorem frames_passingOver (name : String) (tries : Tries ε π) :
    Frames (σ := σ) { optionalFailures := [⟨name, tries.result.message, tries.result.cause⟩] }
      fun run s => pure (.ok (run.passingOver name tries), s) where
  completed := ⟨_, fun _ _ _ => rfl⟩
  aborted _ _ := ⟨_, _, _, fun _ => rfl⟩

theorem frames_closing (step : Step σ Id ε π) (tries : Tries ε π) :
    Frames { executed := [step.name] }
      fun run s => (closing step tries run).run s >>= fun r => pure (.ok r.1, r.2) where
  completed := ⟨_, fun _ _ _ => rfl⟩
  aborted _ _ := ⟨_, _, _, fun _ => rfl⟩

theorem Frames.of_completed {head : Report ε} {frame : Run ε → σ → Id (Except Interruption (Run ε) × σ)}
    (h : Frames head frame) {x : Id (Except Interruption (Run ε) × σ)} {report : Report ε} {audit : AuditLog} {s : σ}
    (hx : x >>= resume frame = pure (.ok ⟨.ok report, audit⟩, s)) :
    ∃ later audit', report = head.append later ∧ x = pure (.ok ⟨.ok later, audit'⟩, s) := by
  obtain ⟨i | ⟨aborted | later, audit'⟩, s'⟩ := x
  · cases hx
  · obtain ⟨aborted', record, s'', haborted⟩ := h.aborted aborted s'
    cases (haborted audit').symm.trans hx
  · obtain ⟨record, hcompleted⟩ := h.completed
    cases (hcompleted later audit' s').symm.trans hx
    exact ⟨later, audit', rfl, rfl⟩

variable {policy : Step σ Id ε π → RetryPolicy}

/-- The first step of a visit that comes to its end leads to a state in which the later steps begin, whatever they are,
and stands around their run. -/
theorem exists_frame {step : Step σ Id ε π} {rest : List (Step σ Id ε π)} {s s' : σ} {report : Report ε}
    {audit : AuditLog} (h : (visit policy (step :: rest)).run.run s = pure (.ok ⟨.ok report, audit⟩, s')) :
    ∃ head frame between, Frames head frame ∧
      (∃ later audit', report = head.append later ∧
        (visit policy rest).run.run between = pure (.ok ⟨.ok later, audit'⟩, s')) ∧
      ∀ steps, (visit policy (step :: steps)).run.run s =
        (visit policy steps).run.run between >>= resume frame := by
  -- a frame that leads there is found as soon as every visit is one within it
  suffices hframe : ∃ head frame between, Frames head frame ∧
      ∀ steps, (visit policy (step :: steps)).run.run s =
        (visit policy steps).run.run between >>= resume frame by
    obtain ⟨head, frame, between, hframes, hvisit⟩ := hframe
    exact ⟨head, frame, between, hframes, hframes.of_completed ((hvisit rest).symm.trans h), hvisit⟩
  cases happlies : step.applies s with
  | false => exact ⟨_, _, s, frames_skipping step.name, fun steps => run_visit_skip policy steps happlies⟩
  | true =>
    rcases htries : (attempt step.execute (policy step).maxRetries.toNat 0).run.run s with ⟨i | tries, between⟩
    · rw [run_visit_attempt policy rest happlies, htries] at h
      cases h
    · have hvisit (steps : List (Step σ Id ε π)) : (visit policy (step :: steps)).run.run s =
          if tries.result.isSuccess then
            (visit policy steps).run.run between >>= resume fun run s =>
              (closing step tries run).run s >>= fun r => pure (.ok r.1, r.2)
          else if step.mandatory || tries.result.isRejected then pure (.ok (stopped step.name tries), between)
          else
            (visit policy steps).run.run between >>= resume fun run s =>
              pure (.ok (run.passingOver step.name tries), s) := by
        rw [run_visit_attempt policy steps happlies, htries]
        rfl
      cases hok : tries.result.isSuccess with
      | true =>
        refine ⟨_, _, between, frames_closing step tries, fun steps => ?_⟩
        rw [hvisit, if_pos hok]
      | false =>
        cases hlasts : step.mandatory || tries.result.isRejected with
        | true =>
          rw [hvisit, hok, hlasts] at h
          cases h
        | false =>
          refine ⟨_, _, between, frames_passingOver step.name tries, fun steps => ?_⟩
          rw [hvisit, hok, hlasts]
          rfl

/-! ### Runs that differ in one step -/

/-- What a run becomes when a step is put into it that leaves no more than a record at a position, and a change of what
is reported after the steps before it. -/
structure Amended (first : Report ε) (position : ℕ) (change : Report ε → Report ε) (record : StepRecord)
    (run run' : Run ε) : Prop where
  aborted : ∀ aborted, run.result = .error aborted → run'.result = .error aborted
  completed : ∀ report, run.result = .ok report →
    ∃ last, report = first.append last ∧ run'.result = .ok (first.append (change last))
  records : ∃ before after, before.length = position ∧ run.audit.records = before ++ after ∧
    run'.audit.records = before ++ record :: after

variable {first head : Report ε} {position : ℕ} {change : Report ε → Report ε} {record : StepRecord} {run run' : Run ε}

theorem Amended.framed {frame : Run ε → σ → Id (Except Interruption (Run ε) × σ)} (hframe : Frames head frame)
    (h : Amended first position change record run run') (s : σ) :
    ∃ whole whole' s', frame run s = pure (.ok whole, s') ∧ frame run' s = pure (.ok whole', s') ∧
      Amended (head.append first) (position + 1) change record whole whole' := by
  obtain ⟨haborted, hcompleted, before, after, hlength, hrecords, hrecords'⟩ := h
  have hrecordsAfter (own : StepRecord) : ∃ before after, before.length = position + 1 ∧
      (run.audit.cons own).records = before ++ after ∧ (run'.audit.cons own).records = before ++ record :: after :=
    ⟨own :: before, after, congrArg Nat.succ hlength, congrArg (own :: ·) hrecords, congrArg (own :: ·) hrecords'⟩
  obtain ⟨aborted | report, audit⟩ := run
  · obtain ⟨result', audit'⟩ := run'
    obtain rfl : result' = _ := haborted aborted rfl
    obtain ⟨aborted', own, s', hframed⟩ := hframe.aborted aborted s
    exact ⟨_, _, s', hframed audit, hframed audit', fun _ h => h, nofun, hrecordsAfter own⟩
  · obtain ⟨last, rfl, hresult'⟩ := hcompleted report rfl
    obtain ⟨result', audit'⟩ := run'
    obtain rfl : result' = _ := hresult'
    obtain ⟨own, hframed⟩ := hframe.completed
    refine ⟨_, _, s, hframed _ audit s, hframed _ audit' s, nofun, fun report hreport => ?_, hrecordsAfter own⟩
    cases hreport
    exact ⟨last, (head.append_append first last).symm, congrArg _ (head.append_append first _).symm⟩

theorem Amended.visit {xs later later' : List (Step σ Id ε π)} {s s₁ s₂ : σ} {audit : AuditLog}
    (hfirst : (visit policy xs).run.run s = pure (.ok ⟨.ok first, audit⟩, s₁))
    (hlater : (visit policy later).run.run s₁ = pure (.ok run, s₂))
    (hlater' : (visit policy later').run.run s₁ = pure (.ok run', s₂))
    (h : Amended {} 0 change record run run') :
    ∃ whole whole' s₃, (visit policy (xs ++ later)).run.run s = pure (.ok whole, s₃) ∧
      (visit policy (xs ++ later')).run.run s = pure (.ok whole', s₃) ∧
      Amended first xs.length change record whole whole' := by
  induction xs generalizing s first audit with
  | nil =>
    cases hfirst
    exact ⟨run, run', s₂, hlater, hlater', h⟩
  | cons step rest ih =>
    obtain ⟨head, frame, between, hframe, ⟨later₁, audit₁, rfl, hrest⟩, hvisit⟩ := exists_frame hfirst
    obtain ⟨inner, inner', s₃, hinner, hinner', hamended⟩ := ih hrest
    obtain ⟨whole, whole', s₄, hwhole, hwhole', hamended⟩ := hamended.framed hframe s₃
    refine ⟨whole, whole', s₄, ?_, ?_, hamended⟩
    · rw [List.cons_append, hvisit, hinner]
      exact hwhole
    · rw [List.cons_append, hvisit, hinner']
      exact hwhole'

/-! ### Steps that are passed by -/

theorem exists_visit {steps : List (Step σ Id ε π)}
    (hretries : ∀ step ∈ steps, (policy step).maxRetries.toNat < attemptCounterMax) (s : σ) :
    ∃ run s', (visit policy steps).run.run s = pure (.ok run, s') := by
  have hkeeps : ∀ step ∈ steps, Keeps Logic.plain (fun (_ : σ) _ => True) step :=
    fun step _ => .inr ⟨fun _ _ _ => trivial, fun _ _ _ => trivial⟩
  obtain ⟨run, s', hrun, -⟩ := (passes_of_keeps hkeeps).visit hretries trivial
  exact ⟨run, s', hrun⟩

theorem amended_skipping (name : String) (run : Run ε) :
    Amended {} 0 (.skipping name) (.skipped name) run (run.skipping name) := by
  refine ⟨fun aborted h => ?_, fun report h => ⟨report, rfl, ?_⟩, [], run.audit.records, rfl, rfl, rfl⟩
  · rw [skipping, h]
    rfl
  · rw [skipping, h]
    rfl

theorem amended_passingOver (name : String) (tries : Tries ε π) (run : Run ε) :
    Amended {} 0 (.passingOver ⟨name, tries.result.message, tries.result.cause⟩)
      (.failed name tries.attempts tries.result.message false) run (run.passingOver name tries) := by
  refine ⟨fun aborted h => ?_, fun report h => ⟨report, rfl, ?_⟩, [], run.audit.records, rfl, rfl, rfl⟩
  · rw [passingOver, h]
    rfl
  · rw [passingOver, h]
    rfl

theorem run_attempt_stuck {execute : StateT σ Id (StepResult ε π)} {s : σ} {message : String} {cause : Option ε}
    (hstuck : execute.run s = pure (.transient message cause, s)) (retries made : ℕ)
    (h : made + retries < attemptCounterMax) :
    (attempt execute retries made).run.run s = pure (.ok ⟨made + retries + 1, .transient message cause⟩, s) := by
  induction retries generalizing made with
  | zero =>
    rw [run_attempt_settled (by omega) (.inr rfl), hstuck]
    rfl
  | succ retries ih =>
    rw [run_attempt_again (by omega) (by rw [hstuck]; rfl), hstuck, ← Nat.add_assoc made, Nat.add_right_comm made]
    exact ih (made + 1) (by omega)

/-- A step that does not apply where the steps before it end, or that is optional and fails there for good without a
trace, changes neither the state in which a run ends nor its abort, nor what else it reports. -/
theorem visit_passing_by (overrides : Overrides) (xs ys : List (Step σ Id ε π)) (step : Step σ Id ε π)
    (hretries : ∀ step' ∈ xs ++ step :: ys, (overrides.policyFor step').maxRetries.toNat < attemptCounterMax)
    {s s₁ : σ} {first : Report ε} {audit : AuditLog}
    (hfirst : (visit overrides.policyFor xs).run.run s = pure (.ok ⟨.ok first, audit⟩, s₁)) :
    (step.applies s₁ = false → ∃ run run' s₂,
      (visit overrides.policyFor (xs ++ ys)).run.run s = pure (.ok run, s₂) ∧
      (visit overrides.policyFor (xs ++ step :: ys)).run.run s = pure (.ok run', s₂) ∧
      Amended first xs.length (.skipping step.name) (.skipped step.name) run run') ∧
    ∀ message cause, step.applies s₁ = true → step.mandatory = false →
      step.execute.run s₁ = pure (.transient message cause, s₁) → ∃ run run' s₂,
      (visit overrides.policyFor (xs ++ ys)).run.run s = pure (.ok run, s₂) ∧
      (visit overrides.policyFor (xs ++ step :: ys)).run.run s = pure (.ok run', s₂) ∧
      Amended first xs.length (.passingOver ⟨step.name, message, cause⟩)
        (.failed step.name ((overrides.policyFor step).maxRetries.toNat + 1) message false) run run' := by
  have hlast : ∀ step' ∈ ys, (overrides.policyFor step').maxRetries.toNat < attemptCounterMax :=
    fun step' hstep' => hretries step' (by simp [hstep'])
  obtain ⟨run, s₂, hlater⟩ := exists_visit hlast s₁
  constructor
  · intro hskip
    refine (amended_skipping step.name run).visit hfirst hlater ?_
    rw [run_visit_skip _ _ hskip, hlater]
    rfl
  · intro message cause happlies hoptional hstuck
    have hattempt := run_attempt_stuck hstuck (overrides.policyFor step).maxRetries.toNat 0
      (by simpa using hretries step (by simp))
    rw [Nat.zero_add] at hattempt
    have hamended := amended_passingOver (π := π) step.name
      ⟨(overrides.policyFor step).maxRetries.toNat + 1, .transient message cause⟩ run
    refine hamended.visit hfirst hlater ?_
    rw [run_visit_attempt _ _ happlies, hattempt, pure_bind, resume_ok, hoptional, hlater]
    rfl

def order : Step ℕ Id String Unit where
  name := "order"
  execute := fun n => (.success "ordered" none, n + 1)
  compensate := fun n => (.success "cancelled" none, n - 1)

def discount : Step ℕ Id String Unit where
  name := "discount"
  applies := fun n => 10 ≤ n
  execute := fun n => (.success "discounted" none, n)

def mail : Step ℕ Id String Unit where
  name := "mail"
  execute := fun n => (.transient "offline" none, n)
  mandatory := false
  retry := .fixed 2 0

def refusal : Step ℕ Id String Unit where
  name := "payment"
  execute := fun n => (.rejected "refused" "card expired", n)

theorem visit_passing_by_order :
    (∃ run run' s, (visit (Overrides.policyFor ∅) ([order] ++ [refusal])).run.run 0 = pure (.ok run, s) ∧
      (visit (Overrides.policyFor ∅) ([order] ++ discount :: [refusal])).run.run 0 = pure (.ok run', s) ∧
      Amended { executed := ["order"] } 1 (.skipping "discount") (.skipped "discount") run run') ∧
    ∃ run run' s, (visit (Overrides.policyFor ∅) ([order] ++ [order])).run.run 0 = pure (.ok run, s) ∧
      (visit (Overrides.policyFor ∅) ([order] ++ mail :: [order])).run.run 0 = pure (.ok run', s) ∧
      Amended { executed := ["order"] } 1 (.passingOver ⟨"mail", "offline", none⟩) (.failed "mail" 3 "offline" false)
        run run' := by
  constructor
  · exact (visit_passing_by ∅ [order] [refusal] discount (by decide) rfl).1 rfl
  · exact (visit_passing_by ∅ [order] [order] mail (by decide) rfl).2 "offline" none rfl rfl rfl

end Run

end Missions
