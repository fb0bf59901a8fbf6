import Missions.Proofs.Saga.Unfolding

/-! What a visit of steps comes to, told in any logic for the effects of the steps. The rules build the passage of a
list of steps from that of its first step and that of the rest. -/

namespace Missions

/-- A way to tell what computations come to: `Obeys x Q g` says that `x`, begun where things stand at `g`, ends as `Q`
says. -/
structure Logic (m : Type → Type) [Monad m] (G : Type) where
  Obeys : {α : Type} → m α → (α → G → Prop) → G → Prop
  ret : ∀ {α : Type} {a : α} {Q : α → G → Prop} {g : G}, Q a g → Obeys (pure a) Q g
  bind : ∀ {α β : Type} {x : m α} {f : α → m β} {Q : β → G → Prop} {g : G},
    Obeys x (fun a g => Obeys (f a) Q g) g → Obeys (x >>= f) Q g
  mono : ∀ {α : Type} {x : m α} {Q Q' : α → G → Prop} {g : G},
    Obeys x Q g → (∀ a g, Q a g → Q' a g) → Obeys x Q' g

def Logic.plain : Logic Id Unit where
  Obeys x Q g := Q x.run g
  ret h := h
  bind h := h
  mono h hQ := hQ _ _ h

namespace Run

variable {σ ε π G : Type} {m : Type → Type} [Monad m] {L : Logic m G} {policy : Step σ m ε π → RetryPolicy}

/-- How the attempts of a step end: with `T`, or interrupted, which tells of retries that cannot be counted. -/
def Attempted (T : Tries ε π → σ → G → Prop) (last : Nat) (r : Except Interruption (Tries ε π) × σ) (g : G) : Prop :=
  match r.1 with
  | .ok tries => T tries r.2 g
  | .error _ => attemptCounterMax ≤ last

/-- How a visit ends: with a run in `R`, or interrupted. -/
def Comes (R : Run ε → σ → G → Prop) (interrupted : Prop) (r : Except Interruption (Run ε) × σ) (g : G) : Prop :=
  match r.1 with
  | .ok run => R run r.2 g
  | .error _ => interrupted

theorem Comes.mono {R R' : Run ε → σ → G → Prop} {interrupted interrupted' : Prop}
    {r : Except Interruption (Run ε) × σ} {g : G} (h : Comes R interrupted r g)
    (hR : ∀ run s g, R run s g → R' run s g) (hinterrupted : interrupted → interrupted') :
    Comes R' interrupted' r g := by
  obtain ⟨_ | run, s⟩ := r
  · exact hinterrupted h
  · exact hR run s g h

theorem Comes.resume {R R' : Run ε → σ → G → Prop} {interrupted interrupted' : Prop}
    {r : Except Interruption (Run ε) × σ} {g : G} (h : Comes R' interrupted r g)
    (hinterrupted : interrupted → interrupted') {f : Run ε → σ → m (Except Interruption (Run ε) × σ)}
    (hf : ∀ run s g, R' run s g → L.Obeys (f run s) (Comes R interrupted') g) :
    L.Obeys (Run.resume f r) (Comes R interrupted') g := by
  obtain ⟨_ | run, s⟩ := r
  · exact L.ret (hinterrupted h)
  · exact hf run s g h

def Uncountable (policy : Step σ m ε π → RetryPolicy) (steps : List (Step σ m ε π)) : Prop :=
  ∃ step ∈ steps, attemptCounterMax ≤ (policy step).maxRetries.toNat

variable {step : Step σ m ε π} {rest : List (Step σ m ε π)}

theorem Uncountable.cons (h : Uncountable policy rest) : Uncountable policy (step :: rest) := by
  obtain ⟨step', hstep', hfull⟩ := h
  exact ⟨step', List.mem_cons_of_mem _ hstep', hfull⟩

/-- A visit that begins in `I` ends with a run in `R`, unless the attempts of one of the steps cannot be counted. -/
def Passes (L : Logic m G) (policy : Step σ m ε π → RetryPolicy) (steps : List (Step σ m ε π)) (I : σ → G → Prop)
    (R : Run ε → σ → G → Prop) : Prop :=
  ∀ s g, I s g → L.Obeys ((visit policy steps).run.run s) (Comes R (Uncountable policy steps)) g

variable {I : σ → G → Prop} {R : Run ε → σ → G → Prop}

theorem Passes.nil (h : ∀ s g, I s g → R .ended s g) : Passes L policy [] I R := fun s g hI => L.ret (h s g hI)

theorem Passes.mono {I₀ : σ → G → Prop} {R₀ : Run ε → σ → G → Prop} {steps : List (Step σ m ε π)}
    (h : Passes L policy steps I R) (hI : ∀ s g, I₀ s g → I s g) (hR : ∀ run s g, R run s g → R₀ run s g) :
    Passes L policy steps I₀ R₀ := fun s g hs => L.mono (h s g (hI s g hs)) fun _ _ hr => hr.mono hR id

variable [LawfulMonad m]

/-- `J` holds before each attempt, with the number of those that were made. A failure that passes leads back to it. -/
theorem attempted {execute : StateT σ m (StepResult ε π)} {J : Nat → σ → G → Prop} {T : Tries ε π → σ → G → Prop}
    (hexecute : ∀ made s g, J made s g → L.Obeys (execute.run s)
      (fun r g => (r.1.isRetryable → J (made + 1) r.2 g) ∧ T ⟨made + 1, r.1⟩ r.2 g) g)
    (retries made : Nat) {s : σ} {g : G} (hJ : J made s g) :
    L.Obeys ((attempt execute retries made).run.run s) (Attempted T (made + retries)) g := by
  -- on the retries that are left
  induction retries generalizing made s g with
  | zero =>
    by_cases hmade : made < attemptCounterMax
    · rw [run_attempt _ _ hmade]
      refine L.bind (L.mono (hexecute made s g hJ) fun r g hr => ?_)
      cases r.1.isRetryable <;> exact L.ret hr.2
    · rw [run_attempt_full _ _ hmade]
      exact L.ret (Nat.le_of_not_lt hmade)
  | succ retries ih =>
    by_cases hmade : made < attemptCounterMax
    · rw [run_attempt _ _ hmade]
      refine L.bind (L.mono (hexecute made s g hJ) fun r g hr => ?_)
      cases hretry : r.1.isRetryable with
      | true =>
        refine L.mono (ih (made + 1) (hr.1 hretry)) fun r g hr => ?_
        obtain ⟨_ | _, _⟩ := r
        · exact Nat.le_trans hr (by omega)
        · exact hr
      | false => exact L.ret hr.2
    · rw [run_attempt_full _ _ hmade]
      exact L.ret (Nat.le_trans (Nat.le_of_not_lt hmade) (Nat.le_add_right _ _))

theorem attempted_all {execute : StateT σ m (StepResult ε π)} {J : Nat → σ → G → Prop} {T : Tries ε π → σ → G → Prop}
    (hexecute : ∀ made s g, J made s g → L.Obeys (execute.run s)
      (fun r g => (r.1.isRetryable → J (made + 1) r.2 g) ∧ T ⟨made + 1, r.1⟩ r.2 g) g)
    (retries : Nat) {s : σ} {g : G} (hJ : J 0 s g) :
    L.Obeys ((attempt execute retries 0).run.run s) (Attempted T retries) g := by
  have hattempted := attempted hexecute retries 0 hJ
  rwa [Nat.zero_add] at hattempted

theorem Passes.skip (hskip : ∀ s g, I s g → step.applies s = false)
    (hrest : Passes L policy rest I fun run => R (run.skipping step.name)) : Passes L policy (step :: rest) I R := by
  intro s g hI
  rw [run_visit_skip policy rest (hskip s g hI)]
  refine L.bind (L.mono (hrest s g hI) fun r g hr => ?_)
  exact hr.resume Uncountable.cons fun run s g h => L.ret h

/-- A step that applies. `T` is what its attempts come to, and `V` what the run of the later steps comes to after its
success. -/
theorem Passes.apply {T : Tries ε π → σ → G → Prop} {V : Tries ε π → Run ε → σ → G → Prop}
    (happlies : ∀ s g, I s g → step.applies s = true)
    (htries : ∀ s g, I s g → L.Obeys ((attempt step.execute (policy step).maxRetries.toNat 0).run.run s)
      (Attempted T (policy step).maxRetries.toNat) g)
    (hsuccess : ∀ tries, tries.result.isSuccess = true → Passes L policy rest (T tries) (V tries))
    (hclosing : ∀ tries run s g, tries.result.isSuccess = true → V tries run s g →
      L.Obeys ((closing step tries run).run s) (fun r g => R r.1 r.2 g) g)
    (hstop : ∀ tries s g, tries.result.isSuccess = false → (step.mandatory || tries.result.isRejected) = true →
      T tries s g → R (.stopped step.name tries) s g)
    (hpass : ∀ tries, tries.result.isSuccess = false → (step.mandatory || tries.result.isRejected) = false →
      Passes L policy rest (T tries) fun run => R (run.passingOver step.name tries)) :
    Passes L policy (step :: rest) I R := by
  intro s g hI
  rw [run_visit_attempt policy rest (happlies s g hI)]
  refine L.bind (L.mono (htries s g hI) fun r g hT => ?_)
  obtain ⟨_ | tries, s⟩ := r
  · exact L.ret ⟨step, List.mem_cons_self, hT⟩
  rw [resume_ok]
  cases hok : tries.result.isSuccess with
  | true =>
    rw [if_pos rfl]
    refine L.bind (L.mono (hsuccess tries hok s g hT) fun r g hr => ?_)
    refine hr.resume Uncountable.cons fun run s g h => ?_
    exact L.bind (L.mono (hclosing tries run s g hok h) fun r g hR => L.ret hR)
  | false =>
    rw [if_neg (by simp)]
    cases hlasts : step.mandatory || tries.result.isRejected with
    | true => exact L.ret (hstop tries s g hok hlasts hT)
    | false =>
      rw [if_neg (by simp)]
      refine L.bind (L.mono (hpass tries hok hlasts s g hT) fun r g hr => ?_)
      exact hr.resume Uncountable.cons fun run s g h => L.ret h

/-- A step that never applies, or whose calls leave what holds as it is. -/
def Keeps (L : Logic m G) (K : σ → G → Prop) (step : Step σ m ε π) : Prop :=
  (∀ s g, K s g → step.applies s = false) ∨
    (∀ s g, K s g → L.Obeys (step.execute.run s) (fun r => K r.2) g) ∧
      ∀ s g, K s g → L.Obeys (step.compensate.run s) (fun r => K r.2) g

omit [LawfulMonad m] in
theorem obeys_closing {K K' : σ → G → Prop} (hok : ∀ s g, K s g → K' s g)
    (hundo : ∀ s g, K s g → L.Obeys (step.compensate.run s) (fun r => K' r.2) g) (tries : Tries ε π) (run : Run ε)
    {s : σ} {g : G} (h : K s g) : L.Obeys ((closing step tries run).run s) (fun r => K' r.2) g := by
  obtain ⟨aborted | report, audit⟩ := run
  · rw [closing, StateT.run_bind]
    exact L.bind (L.mono (hundo s g h) fun r g hr => L.ret hr)
  · exact L.ret (hok s g h)

theorem passes_of_keeps {K : σ → G → Prop} {steps : List (Step σ m ε π)} (h : ∀ step ∈ steps, Keeps L K step) :
    Passes L policy steps K fun _ => K := by
  induction steps with
  | nil => exact .nil fun s g hK => hK
  | cons step rest ih =>
    have ih := ih fun step' hstep' => h step' (List.mem_cons_of_mem step hstep')
    rcases h step List.mem_cons_self with hskip | ⟨hexecute, hundo⟩
    · exact .skip hskip ih
    · intro s g hK
      -- whether the step applies is told by the state in which the visit begins
      have hbegin : Passes L policy (step :: rest) (fun s' g' => s' = s ∧ K s' g') fun _ => K := by
        cases happlies : step.applies s with
        | false =>
          refine .skip (fun s' g' hs => ?_) (ih.mono (fun s' g' hs => hs.2) fun _ _ _ hK => hK)
          rw [hs.1, happlies]
        | true =>
          refine .apply (T := fun _ => K) (V := fun _ _ => K) (fun s' g' hs => ?_) (fun s' g' hs => ?_)
            (fun tries _ => ih) (fun tries run s' g' _ hK' => obeys_closing (fun _ _ hK' => hK') hundo tries run hK')
            (fun tries s' g' _ _ hK' => hK') fun tries _ _ => ih
          · rw [hs.1, happlies]
          · exact attempted_all (J := fun _ => K) (fun made s g hK' =>
              L.mono (hexecute s g hK') fun r g hr => ⟨fun _ => hr, hr⟩) (policy step).maxRetries.toNat hs.2
      exact hbegin s g ⟨rfl, hK⟩

end Run

theorem Run.Passes.visit {σ ε π : Type} {policy : Step σ Id ε π → RetryPolicy} {steps : List (Step σ Id ε π)}
    {I : σ → Unit → Prop} {R : Run ε → σ → Unit → Prop} (h : Run.Passes .plain policy steps I R)
    (hretries : ∀ step ∈ steps, (policy step).maxRetries.toNat < attemptCounterMax) {s : σ} (hs : I s ()) :
    ∃ (run : Run ε) (s' : σ), (Run.visit policy steps).run.run s = pure (.ok run, s') ∧ R run s' () := by
  have hcomes := h s () hs
  rcases hrun : (Run.visit policy steps).run.run s with ⟨_ | run, s'⟩
  · rw [hrun] at hcomes
    obtain ⟨step, hstep, hfull⟩ := hcomes
    exact absurd (hretries step hstep) (Nat.not_lt.2 hfull)
  · rw [hrun] at hcomes
    exact ⟨run, s', rfl, hcomes⟩

theorem Run.Passes.run {σ ε π : Type} {saga : Saga σ Id ε π} {I : σ → Unit → Prop} {R : Run ε → σ → Unit → Prop}
    (h : Run.Passes .plain saga.policyFor saga.steps I R)
    (hretries : ∀ step ∈ saga.steps, (saga.policyFor step).maxRetries.toNat < attemptCounterMax) {s : σ}
    (hs : I s ()) : ∃ (run : Run ε) (s' : σ), saga.run.run.run s = pure (.ok run, s') ∧ R run s' () :=
  h.visit hretries hs

end Missions
