import Missions.Proofs.Ledger.Views
import Missions.Proofs.Saga.Orchestration
import Missions.Proofs.Saga.Transport
import Missions.Proofs.Saga.Visits

/-! The calls of a run, beside the state, with the writes that were performed for each of them. What a step keeps at
its attempts before one is settled on, and at its compensation after one has succeeded, holds throughout the run. -/

namespace Missions

variable {σ ε π G S : Type}

def Note.performed : Note Call
  | c, .ok _ => if c.method.writes then [c] else []
  | _, .error _ => []

structure Minute (ε π : Type) where
  call : StepCall
  result : StepResult ε π
  performed : List Call

structure Minutes (σ ε π : Type) where
  state : σ
  entries : List (Minute ε π) := []

def Minutes.record (c : StepCall) (act : StateT σ (Program σ) (StepResult ε π)) :
    StateT (Minutes σ ε π) (Program (Minutes σ ε π)) (StepResult ε π) := fun h =>
  ((act.run h.state).noted .performed []).seen (fun s => (⟨s, h.entries⟩ : Minutes σ ε π)) >>= fun r =>
    .done (r.1.1, ⟨r.2.state, h.entries ++ [⟨c, r.1.1, r.1.2⟩]⟩)

def Step.minuted (step : Step σ (Program σ) ε π) (position : Nat) :
    Step (Minutes σ ε π) (Program (Minutes σ ε π)) ε π where
  name := step.name
  execute := Minutes.record (.execute position) step.execute
  compensate := Minutes.record (.compensate position) step.compensate
  undoing := step.undoing
  mandatory := step.mandatory
  applies := fun h => step.applies h.state
  retry := step.retry

def Step.minutedFrom (steps : List (Step σ (Program σ) ε π)) (position : Nat) :
    List (Step (Minutes σ ε π) (Program (Minutes σ ε π)) ε π) :=
  (steps.zipIdx position).map fun (step, position) => step.minuted position

def Saga.minuted (saga : Saga σ (Program σ) ε π) : Saga (Minutes σ ε π) (Program (Minutes σ ε π)) ε π where
  steps := Step.minutedFrom saga.steps 0
  overrides := saga.overrides
  steps_ne_nil := by simp [Step.minutedFrom, saga.steps_ne_nil]

/-! ### Minutes change nothing else -/

def Minutes.bare : Reading (Program (Minutes σ ε π)) (Program σ) (Minutes σ ε π) σ where
  view := state
  read := Program.seen state
  read_pure _ _ := rfl
  read_bind := Program.seen_bind state

theorem Minutes.seen_record (c : StepCall) (act : StateT σ (Program σ) (StepResult ε π)) (h : Minutes σ ε π) :
    ((record c act).run h).seen state = act.run h.state :=
  Program.seen_noted_bind (fun _ => rfl) (fun _ _ _ => rfl) (act.run h.state) []

theorem Step.minuted_reads (step : Step σ (Program σ) ε π) (position : Nat) :
    (step.minuted position).Reads Minutes.bare step where
  name := rfl
  undoing := rfl
  mandatory := rfl
  applies _ := rfl
  execute := Minutes.seen_record (.execute position) step.execute
  compensate := Minutes.seen_record (.compensate position) step.compensate

theorem Step.minutedFrom_reads {policy : Step (Minutes σ ε π) (Program (Minutes σ ε π)) ε π → RetryPolicy}
    {policy' : Step σ (Program σ) ε π → RetryPolicy}
    (hpolicy : ∀ step position, policy (step.minuted position) = policy' step)
    (steps : List (Step σ (Program σ) ε π)) (position : Nat) :
    List.Forall₂ (fun step step' => step.Reads Minutes.bare step' ∧ policy step = policy' step')
      (Step.minutedFrom steps position) steps := by
  induction steps generalizing position with
  | nil => exact .nil
  | cons step rest ih => exact .cons ⟨step.minuted_reads position, hpolicy step position⟩ (ih (position + 1))

theorem Saga.seen_minuted (saga : Saga σ (Program σ) ε π) (h : Minutes σ ε π) :
    (saga.minuted.run.run.run h).seen Minutes.state = saga.run.run.run h.state :=
  Run.read_visit (R := Minutes.bare) (Step.minutedFrom_reads (fun _ _ => rfl) saga.steps 0) h

/-! ### What holds throughout a run -/

namespace Minutes

/-- The attempts of the step at a position have all failed so that another one may follow. -/
def Pending (entries : List (Minute ε π)) (position : Nat) : Prop :=
  ∀ e ∈ entries, e.call = .execute position → e.result.isRetryable = true

def Succeeded (entries : List (Minute ε π)) (position : Nat) : Prop :=
  ∃ e ∈ entries, e.call = .execute position ∧ e.result.isSuccess = true

variable {P : Protocol (Minutes σ ε π) G} {c : StepCall} {act : StateT σ (Program σ) (StepResult ε π)}
variable {h : Minutes σ ε π} {g : G}

theorem obeys_record {Q : StepResult ε π × Minutes σ ε π → G → Prop} :
    ((record c act).run h).Obeys P Q g ↔
      (act.run h.state).Obeys ((P.through fun s => ⟨s, h.entries⟩).noting .performed)
        (fun r g => Q (r.1, ⟨r.2, h.entries ++ [⟨c, r.1, g.2⟩]⟩) g.1) (g, []) := by
  have hrun : (record c act).run h = ((act.run h.state).noted .performed []).seen
      (fun s => (⟨s, h.entries⟩ : Minutes σ ε π)) >>= fun r =>
        .done (r.1.1, ⟨r.2.state, h.entries ++ [⟨c, r.1.1, r.1.2⟩]⟩) := rfl
  rw [hrun, Program.obeys_bind, Program.obeys_seen, Program.obeys_noted]
  rfl

theorem obeys_record_last {K : Minutes σ ε π → G → Prop} (hkeeps : ((record c act).run h).Obeys P (fun r => K r.2) g) :
    ((record c act).run h).Obeys P
      (fun r g => K r.2 g ∧ ∃ performed, r.2.entries = h.entries ++ [⟨c, r.1, performed⟩]) g :=
  obeys_record.2 ((obeys_record.1 hkeeps).mono fun _ g hK => ⟨hK, g.2, rfl⟩)

end Minutes

open Minutes

/-- A step that never applies, or whose calls keep what holds: its attempts until one is settled on, its compensation
after one has succeeded. -/
def Step.Upholds (P : Protocol (Minutes σ ε π) G) (K : Minutes σ ε π → G → Prop) (step : Step σ (Program σ) ε π)
    (position : Nat) : Prop :=
  (∀ h g, K h g → step.applies h.state = false) ∨
    (∀ h g, K h g → Pending h.entries position →
      ((record (.execute position) step.execute).run h).Obeys P (fun r => K r.2) g) ∧
    ∀ h g, K h g → Succeeded h.entries position →
      ((record (.compensate position) step.compensate).run h).Obeys P (fun r => K r.2) g

namespace Run

variable {P : Protocol (Minutes σ ε π) G} {K : Minutes σ ε π → G → Prop}
variable {policy : Step (Minutes σ ε π) (Program (Minutes σ ε π)) ε π → RetryPolicy}

/-- Every attempt that was taken down is one of a step before the position. -/
def Before (position : Nat) (entries : List (Minute ε π)) : Prop :=
  ∀ e ∈ entries, ∀ i, e.call = .execute i → i < position

/-- The minutes once attempts of the step at a position have been made after `entries`, the last one with a result. -/
def TakenDown (entries : List (Minute ε π)) (position : Nat) (result : StepResult ε π) (entries' : List (Minute ε π)) :
    Prop :=
  ∃ earlier last, (∀ e ∈ earlier, e.call = .execute position) ∧ last.call = .execute position ∧ last.result = result ∧
    entries' = entries ++ earlier ++ [last]

theorem TakenDown.before {entries entries' : List (Minute ε π)} {position : Nat} {result : StepResult ε π}
    (h : TakenDown entries position result entries') (hbefore : Before position entries) :
    Before (position + 1) entries' := by
  obtain ⟨earlier, last, hearlier, hlast, -, rfl⟩ := h
  have hattempt {e : Minute ε π} (he : e.call = .execute position) {i : Nat} (hi : e.call = .execute i) :
      i < position + 1 := by
    cases he.symm.trans hi
    exact position.lt_succ_self
  intro e he i hi
  rcases List.mem_append.1 he with he | he
  · rcases List.mem_append.1 he with he | he
    · exact Nat.lt_succ_of_lt (hbefore e he i hi)
    · exact hattempt (hearlier e he) hi
  · rw [List.mem_singleton.1 he] at hi
    exact hattempt hlast hi

theorem TakenDown.grows {entries entries' : List (Minute ε π)} {position : Nat} {result : StepResult ε π}
    (h : TakenDown entries position result entries') : entries <+: entries' := by
  obtain ⟨earlier, last, -, -, -, rfl⟩ := h
  rw [List.append_assoc]
  exact List.prefix_append _ _

theorem TakenDown.succeeded {entries entries' entries'' : List (Minute ε π)} {position : Nat} {result : StepResult ε π}
    (h : TakenDown entries position result entries') (hok : result.isSuccess = true) (hlater : entries' <+: entries'') :
    Succeeded entries'' position := by
  obtain ⟨earlier, last, -, hlast, rfl, rfl⟩ := h
  exact ⟨last, hlater.subset (by simp), hlast, hok⟩

theorem attempted_upheld {step : Step σ (Program σ) ε π} {position : Nat}
    (hexecute : ∀ h g, K h g → Pending h.entries position →
      ((record (.execute position) step.execute).run h).Obeys P (fun r => K r.2) g)
    (retries : Nat) {h : Minutes σ ε π} {g : G} (hK : K h g) (hbefore : Before position h.entries) :
    P.logic.Obeys ((attempt (step.minuted position).execute retries 0).run.run h)
      (Attempted (fun tries h' g' => K h' g' ∧ TakenDown h.entries position tries.result h'.entries) retries) g := by
  refine attempted_all (J := fun _ h' g' => K h' g' ∧ ∃ earlier : List (Minute ε π),
    (∀ e ∈ earlier, e.call = .execute position ∧ e.result.isRetryable = true) ∧ h'.entries = h.entries ++ earlier)
    ?_ retries ⟨hK, [], by simp, by simp⟩
  rintro made h' g' ⟨hK', earlier, hearlier, hentries⟩
  have hpending : Pending h'.entries position := by
    intro e he hcall
    rw [hentries] at he
    rcases List.mem_append.1 he with he | he
    · exact absurd (hbefore e he position hcall) (Nat.lt_irrefl position)
    · exact (hearlier e he).2
  refine Program.Obeys.mono (obeys_record_last (hexecute h' g' hK' hpending)) fun r g'' hr => ?_
  obtain ⟨hK'', performed, hlast⟩ := hr
  rw [hentries] at hlast
  refine ⟨fun hretry => ⟨hK'', earlier ++ [⟨.execute position, r.1, performed⟩], ?_, by rw [hlast, List.append_assoc]⟩,
    hK'', earlier, ⟨.execute position, r.1, performed⟩, fun e he => (hearlier e he).1, rfl, rfl, hlast⟩
  intro e he
  rcases List.mem_append.1 he with he | he
  · exact hearlier e he
  · rw [List.mem_singleton.1 he]
    exact ⟨rfl, hretry⟩

def Grown (K : Minutes σ ε π → G → Prop) (entries : List (Minute ε π)) (h : Minutes σ ε π) (g : G) : Prop :=
  K h g ∧ entries <+: h.entries

theorem obeys_compensate_grown {step : Step σ (Program σ) ε π} {position : Nat}
    (hundo : ∀ h g, K h g → Succeeded h.entries position →
      ((record (.compensate position) step.compensate).run h).Obeys P (fun r => K r.2) g)
    {entries : List (Minute ε π)} {h : Minutes σ ε π} {g : G}
    (hgrown : Grown K entries h g ∧ Succeeded h.entries position) :
    P.logic.Obeys ((step.minuted position).compensate.run h) (fun r => Grown K entries r.2) g := by
  obtain ⟨⟨hK, hentries⟩, hok⟩ := hgrown
  refine Program.Obeys.mono (obeys_record_last (hundo h g hK hok)) fun r g hr => ?_
  obtain ⟨hK, performed, hlast⟩ := hr
  exact ⟨hK, hentries.trans (hlast ▸ List.prefix_append _ _)⟩

theorem passes_upheld (steps : List (Step σ (Program σ) ε π)) (position : Nat)
    (hsteps : ∀ row ∈ steps.zipIdx position, row.1.Upholds P K row.2) (entries : List (Minute ε π))
    (hbefore : Before position entries) :
    Passes P.logic policy (Step.minutedFrom steps position) (fun h g => K h g ∧ h.entries = entries)
      fun _ => Grown K entries := by
  induction steps generalizing position entries with
  | nil => exact .nil fun h g hI => ⟨hI.1, hI.2 ▸ List.prefix_refl _⟩
  | cons step rest ih =>
    have hcons : Step.minutedFrom (step :: rest) position =
        step.minuted position :: Step.minutedFrom rest (position + 1) := rfl
    rw [List.zipIdx_cons, List.forall_mem_cons] at hsteps
    obtain ⟨hstep, hrest⟩ := hsteps
    have hlater : Before (position + 1) entries := fun e he i hi => Nat.lt_succ_of_lt (hbefore e he i hi)
    rw [hcons]
    rcases hstep with hskip | ⟨hexecute, hundo⟩
    · exact .skip (fun h g hI => hskip h g hI.1) (ih (position + 1) hrest entries hlater)
    · intro h g hI
      obtain ⟨hK, rfl⟩ := hI
      -- whether the step applies is told by the state in which the visit begins
      have hbegin : Passes P.logic policy (step.minuted position :: Step.minutedFrom rest (position + 1))
          (fun h' g' => h' = h ∧ K h' g') fun _ => Grown K h.entries := by
        cases happlies : step.applies h.state with
        | false =>
          refine .skip (fun h' g' hI => ?_) ((ih (position + 1) hrest h.entries hlater).mono (fun h' g' hI => ?_)
            fun _ _ _ hR => hR)
          · rw [hI.1]
            exact happlies
          · exact ⟨hI.2, by rw [hI.1]⟩
        | true =>
          refine .apply (T := fun tries h' g' => K h' g' ∧ TakenDown h.entries position tries.result h'.entries)
            (V := fun _ _ h' g' => Grown K h.entries h' g' ∧ Succeeded h'.entries position)
            (fun h' g' hI => ?_) (fun h' g' hI => ?_) (fun tries hok h' g' hT => ?_) (fun tries run h' g' hok hV => ?_)
            (fun tries h' g' hfailed hlasts hT => ⟨hT.1, hT.2.grows⟩) fun tries hfailed hpasses h' g' hT => ?_
          · rw [hI.1]
            exact happlies
          · obtain ⟨hh, hK'⟩ := hI
            rw [hh] at hK' ⊢
            exact attempted_upheld hexecute _ hK' hbefore
          · refine (ih (position + 1) hrest h'.entries (hT.2.before hbefore)).mono (fun _ _ h => h)
              (fun run h'' g'' hR => ?_) h' g' ⟨hT.1, rfl⟩
            exact ⟨⟨hR.1, hT.2.grows.trans hR.2⟩, hT.2.succeeded hok hR.2⟩
          · exact obeys_closing (fun h'' g'' hV => hV.1) (fun h'' g'' hV => obeys_compensate_grown hundo hV) tries
              run hV
          · refine (ih (position + 1) hrest h'.entries (hT.2.before hbefore)).mono (fun _ _ h => h)
              (fun run h'' g'' hR => ?_) h' g' ⟨hT.1, rfl⟩
            exact ⟨hR.1, hT.2.grows.trans hR.2⟩
      exact hbegin h g ⟨rfl, hK⟩

end Run

/-- What every step of a saga upholds holds at the end of a run that is not interrupted. -/
theorem Saga.obeys_minuted {saga : Saga σ (Program σ) ε π} {P : Protocol (Minutes σ ε π) G}
    {K : Minutes σ ε π → G → Prop} (hsteps : ∀ row ∈ saga.steps.zipIdx, row.1.Upholds P K row.2) {s : σ} {g : G}
    (hK : K ⟨s, []⟩ g) :
    (saga.minuted.run.run.run ⟨s, []⟩).Obeys P (fun r g => ∀ run, r.1 = .ok run → K r.2 g) g := by
  have hpasses : Run.Passes P.logic saga.minuted.policyFor _ _ _ :=
    Run.passes_upheld saga.steps 0 hsteps [] fun e he => by cases he
  refine Program.Obeys.mono (hpasses ⟨s, []⟩ g ⟨hK, rfl⟩) fun r g hcomes run hrun => ?_
  rw [Run.Comes, hrun] at hcomes
  exact hcomes.1

end Missions
