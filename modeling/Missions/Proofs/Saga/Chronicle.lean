import Missions.Proofs.Saga.Orchestration
import Missions.Proofs.Saga.Passage
import Missions.Proofs.Saga.Transport

/-! What the steps of a run reported, call by call, kept beside the state; and how the run is put together from it. -/

namespace Missions

variable {σ ε π : Type}

structure Entry (ε π : Type) where
  call : StepCall
  result : StepResult ε π

/-- A state with the calls that led to it and their results, the earliest first. -/
structure Chronicle (σ ε π : Type) where
  state : σ
  entries : List (Entry ε π) := []

def Chronicle.note (c : StepCall) (act : StateT σ Id (StepResult ε π)) :
    StateT (Chronicle σ ε π) Id (StepResult ε π) := fun h =>
  pure ((act.run h.state).1, ⟨(act.run h.state).2, h.entries ++ [⟨c, (act.run h.state).1⟩]⟩)

theorem Chronicle.run_note (c : StepCall) (act : StateT σ Id (StepResult ε π)) (h : Chronicle σ ε π) :
    (note c act).run h = pure ((act.run h.state).1, ⟨(act.run h.state).2, h.entries ++ [⟨c, (act.run h.state).1⟩]⟩) :=
  rfl

/-- The step at a position, with its calls and their results written down. -/
def Step.chronicled (step : Step σ Id ε π) (position : Nat) : Step (Chronicle σ ε π) Id ε π where
  name := step.name
  execute := Chronicle.note (.execute position) step.execute
  compensate := Chronicle.note (.compensate position) step.compensate
  undoing := step.undoing
  mandatory := step.mandatory
  applies := fun h => step.applies h.state
  retry := step.retry

def Step.chronicledFrom (steps : List (Step σ Id ε π)) (position : Nat) : List (Step (Chronicle σ ε π) Id ε π) :=
  (steps.zipIdx position).map fun (step, position) => step.chronicled position

/-- The saga with the calls of its steps and their results written down. -/
def Saga.chronicled (saga : Saga σ Id ε π) : Saga (Chronicle σ ε π) Id ε π where
  steps := Step.chronicledFrom saga.steps 0
  overrides := saga.overrides
  steps_ne_nil := by simp [Step.chronicledFrom, saga.steps_ne_nil]

/-! ### Writing down changes nothing else -/

def Chronicle.bare : Reading Id Id (Chronicle σ ε π) σ where
  view := Chronicle.state
  read x := (x.1, x.2.state)
  read_pure _ _ := rfl
  read_bind x _ _ h := h x.1 x.2

theorem Step.chronicled_reads (step : Step σ Id ε π) (position : Nat) :
    (step.chronicled position).Reads Chronicle.bare step where
  name := rfl
  undoing := rfl
  mandatory := rfl
  applies _ := rfl
  execute _ := rfl
  compensate _ := rfl

theorem Step.chronicledFrom_reads {policy : Step (Chronicle σ ε π) Id ε π → RetryPolicy}
    {policy' : Step σ Id ε π → RetryPolicy}
    (hpolicy : ∀ step position, policy (step.chronicled position) = policy' step)
    (steps : List (Step σ Id ε π)) (position : Nat) :
    List.Forall₂ (fun step step' => step.Reads Chronicle.bare step' ∧ policy step = policy' step')
      (Step.chronicledFrom steps position) steps := by
  induction steps generalizing position with
  | nil => exact .nil
  | cons step rest ih => exact .cons ⟨step.chronicled_reads position, hpolicy step position⟩ (ih (position + 1))

theorem Saga.run_of_chronicled (saga : Saga σ Id ε π) {run : Run ε} {h h' : Chronicle σ ε π}
    (hrun : saga.chronicled.run.run.run h = pure (.ok run, h')) :
    saga.run.run.run h.state = pure (.ok run, h'.state) := by
  have hpolicy (step : Step σ Id ε π) (position : Nat) :
      saga.chronicled.policyFor (step.chronicled position) = saga.policyFor step := rfl
  have hreads := Run.read_visit (Step.chronicledFrom_reads hpolicy saga.steps 0) h
  rw [show (Run.visit saga.chronicled.policyFor (Step.chronicledFrom saga.steps 0)).run.run h = _ from hrun] at hreads
  exact hreads.symm

/-! ### How a run is put together -/

/-- The results of the attempts of one step: failures that passed, and the last one. -/
def Tried (results : List (StepResult ε π)) (tries : Tries ε π) : Prop :=
  tries.attempts = results.length ∧
    ∃ earlier, results = earlier ++ [tries.result] ∧ ∀ result ∈ earlier, result.isRetryable = true

def executions (position : Nat) (results : List (StepResult ε π)) : List (Entry ε π) :=
  results.map fun result => ⟨.execute position, result⟩

theorem executions_append (position : Nat) (results results' : List (StepResult ε π)) :
    executions position (results ++ results') = executions position results ++ executions position results' :=
  List.map_append

/-- The entries from a position on, and the run of the steps there. -/
inductive Tells : Nat → List (Step σ Id ε π) → List (Entry ε π) → Run ε → Prop
  | ended {position : Nat} : Tells position [] [] .ended
  | skipping {position : Nat} {step : Step σ Id ε π} {rest : List (Step σ Id ε π)} {entries : List (Entry ε π)}
      {run : Run ε} (later : Tells (position + 1) rest entries run) :
      Tells position (step :: rest) entries (run.skipping step.name)
  | passingOver {position : Nat} {step : Step σ Id ε π} {rest : List (Step σ Id ε π)} {entries : List (Entry ε π)}
      {run : Run ε} {results : List (StepResult ε π)} {tries : Tries ε π} (tried : Tried results tries)
      (failed : tries.result.isSuccess = false) (later : Tells (position + 1) rest entries run) :
      Tells position (step :: rest) (executions position results ++ entries) (run.passingOver step.name tries)
  | stopped {position : Nat} {step : Step σ Id ε π} {rest : List (Step σ Id ε π)} {results : List (StepResult ε π)}
      {tries : Tries ε π} (tried : Tried results tries) (failed : tries.result.isSuccess = false) :
      Tells position (step :: rest) (executions position results) (.stopped step.name tries)
  | executed {position : Nat} {step : Step σ Id ε π} {rest : List (Step σ Id ε π)} {entries : List (Entry ε π)}
      {results : List (StepResult ε π)} {tries : Tries ε π} {report : Report ε} {audit : AuditLog}
      (tried : Tried results tries) (succeeded : tries.result.isSuccess = true)
      (later : Tells (position + 1) rest entries ⟨.ok report, audit⟩) :
      Tells position (step :: rest) (executions position results ++ entries)
        ⟨.ok { report with executed := step.name :: report.executed },
          audit.cons (.executed step.name tries.attempts tries.result.message step.undoing)⟩
  | undone {position : Nat} {step : Step σ Id ε π} {rest : List (Step σ Id ε π)} {entries : List (Entry ε π)}
      {results : List (StepResult ε π)} {tries : Tries ε π} {aborted : Aborted ε} {audit : AuditLog}
      {undo : StepResult ε π} (tried : Tried results tries) (succeeded : tries.result.isSuccess = true)
      (later : Tells (position + 1) rest entries ⟨.error aborted, audit⟩) :
      Tells position (step :: rest) (executions position results ++ entries ++ [⟨.compensate position, undo⟩])
        ⟨.error (aborted.afterUndo step.name step.undoing undo),
          audit.cons ((StepRecord.executed step.name tries.attempts tries.result.message step.undoing).compensated
            undo.isSuccess undo.message)⟩

namespace Run

/-- The tries of the step at a position have been written down after `before`. -/
def TriedAfter (before : List (Entry ε π)) (position : Nat) (tries : Tries ε π) (h : Chronicle σ ε π) (_ : Unit) :
    Prop :=
  ∃ results, Tried results tries ∧ h.entries = before ++ executions position results

theorem attempted_chronicled (step : Step σ Id ε π) (position retries : Nat) (h : Chronicle σ ε π) :
    Logic.plain.Obeys ((attempt (step.chronicled position).execute retries 0).run.run h)
      (Attempted (TriedAfter h.entries position) retries) () := by
  refine attempted_all (J := fun made h' _ => ∃ earlier : List (StepResult ε π), earlier.length = made ∧
    (∀ result ∈ earlier, result.isRetryable = true) ∧ h'.entries = h.entries ++ executions position earlier)
    ?_ retries ⟨[], rfl, by simp, by simp [executions]⟩
  rintro made h' g ⟨earlier, rfl, hearlier, hentries⟩
  let result := (step.execute.run h'.state).1
  have hwritten : h'.entries ++ [⟨.execute position, result⟩] =
      h.entries ++ executions position (earlier ++ [result]) := by
    simp [hentries, executions]
  refine ⟨fun hretry => ⟨earlier ++ [result], by simp, ?_, hwritten⟩,
    earlier ++ [result], ⟨by simp, earlier, rfl, hearlier⟩, hwritten⟩
  intro result' hresult'
  rcases List.mem_append.1 hresult' with hold | hnew
  · exact hearlier result' hold
  · rw [List.mem_singleton.1 hnew]
    exact hretry

def TellsAfter (before : List (Entry ε π)) (position : Nat) (steps : List (Step σ Id ε π)) (run : Run ε)
    (h : Chronicle σ ε π) (_ : Unit) : Prop :=
  ∃ entries, h.entries = before ++ entries ∧ Tells position steps entries run

theorem closing_chronicled {step : Step σ Id ε π} {rest : List (Step σ Id ε π)} {position : Nat}
    {before : List (Entry ε π)} {results : List (StepResult ε π)} {tries : Tries ε π} {run : Run ε}
    {h : Chronicle σ ε π} (hok : tries.result.isSuccess = true) (htried : Tried results tries)
    (hrun : TellsAfter (before ++ executions position results) (position + 1) rest run h ()) :
    Logic.plain.Obeys ((closing (step.chronicled position) tries run).run h)
      (fun r g => TellsAfter before position (step :: rest) r.1 r.2 g) () := by
  obtain ⟨entries, hentries, htells⟩ := hrun
  obtain ⟨aborted | report, audit⟩ := run
  · refine ⟨executions position results ++ entries ++ [⟨.compensate position, (step.compensate.run h.state).1⟩], ?_,
      .undone htried hok htells⟩
    change h.entries ++ [_] = _
    simp [hentries]
  · refine ⟨executions position results ++ entries, ?_, .executed htried hok htells⟩
    change h.entries = _
    simp [hentries]

theorem passes_tells (policy : Step (Chronicle σ ε π) Id ε π → RetryPolicy) (steps : List (Step σ Id ε π))
    (position : Nat) (h : Chronicle σ ε π) :
    Passes .plain policy (Step.chronicledFrom steps position) (fun h' _ => h' = h)
      (TellsAfter h.entries position steps) := by
  induction steps generalizing position h with
  | nil =>
    refine Passes.nil fun h' g hh => ⟨[], ?_, .ended⟩
    rw [hh, List.append_nil]
  | cons step rest ih =>
    have hcons : Step.chronicledFrom (step :: rest) position =
        step.chronicled position :: Step.chronicledFrom rest (position + 1) := rfl
    rw [hcons]
    cases happlies : step.applies h.state with
    | false =>
      refine .skip (fun h' g hh => ?_) ((ih (position + 1) h).mono (fun _ _ => id) fun run h' g htold => ?_)
      · rw [hh]
        exact happlies
      · obtain ⟨entries, hentries, htells⟩ := htold
        exact ⟨entries, hentries, .skipping htells⟩
    | true =>
      refine .apply (T := TriedAfter h.entries position)
        (V := fun tries run h' g => ∃ results, Tried results tries ∧
          TellsAfter (h.entries ++ executions position results) (position + 1) rest run h' g) ?_ ?_ ?_ ?_ ?_ ?_
      · intro h' g hh
        rw [hh]
        exact happlies
      · intro h' g hh
        rw [hh]
        exact attempted_chronicled step position _ h
      · rintro tries hok h' g ⟨results, htried, hentries⟩
        refine (ih (position + 1) h').mono (fun _ _ => id) (fun run h'' g htold => ?_) h' g rfl
        rw [hentries] at htold
        exact ⟨results, htried, htold⟩
      · rintro tries run h' g hok ⟨results, htried, htold⟩
        exact closing_chronicled hok htried htold
      · rintro tries h' g hfailed hlasts ⟨results, htried, hentries⟩
        exact ⟨_, hentries, .stopped htried hfailed⟩
      · rintro tries hfailed hpasses h' g ⟨results, htried, hentries⟩
        refine (ih (position + 1) h').mono (fun _ _ => id) (fun run h'' g htold => ?_) h' g rfl
        obtain ⟨entries, hafter, htells⟩ := htold
        refine ⟨executions position results ++ entries, ?_, .passingOver htried hfailed htells⟩
        rw [hafter, hentries, List.append_assoc]

end Run

theorem Saga.retries_chronicled {saga : Saga σ Id ε π}
    (h : ∀ step ∈ saga.steps, (saga.policyFor step).maxRetries.toNat < attemptCounterMax) :
    ∀ step ∈ saga.chronicled.steps, (saga.chronicled.policyFor step).maxRetries.toNat < attemptCounterMax := by
  intro step hstep
  obtain ⟨⟨step, position⟩, hmem, rfl⟩ := List.mem_map.1 hstep
  exact h step (List.fst_mem_of_mem_zipIdx hmem)

theorem Saga.run_tells (saga : Saga σ Id ε π)
    (hretries : ∀ step ∈ saga.steps, (saga.policyFor step).maxRetries.toNat < attemptCounterMax) (s : σ) :
    ∃ (run : Run ε) (h : Chronicle σ ε π), saga.chronicled.run.run.run ⟨s, []⟩ = pure (.ok run, h) ∧
      Tells 0 saga.steps h.entries run := by
  obtain ⟨run, h, hrun, entries, hentries, htells⟩ :=
    (Run.passes_tells saga.chronicled.policyFor saga.steps 0 ⟨s, []⟩).run (Saga.retries_chronicled hretries) rfl
  rw [List.nil_append] at hentries
  rw [← hentries] at htells
  exact ⟨run, h, hrun, htells⟩

end Missions
