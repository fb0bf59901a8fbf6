import Missions.Proofs.Saga.Attempts

/-! The loop around the attempts of a step keeps two counts of 32 bits, one of the attempts and one of the failures
among them, and allows another attempt while the failures are at most the retries. This bound is inclusive, so the
attempts can outgrow their count. -/

namespace Missions

variable {σ ε π : Type}

def counted (n : UInt32) : Option UInt32 :=
  if n.toNat < attemptCounterMax then some (n + 1) else none

theorem toNat_add_one {n : UInt32} (h : n.toNat < attemptCounterMax) : (n + 1).toNat = n.toNat + 1 := by
  rw [UInt32.toNat_add, UInt32.toNat_one, Nat.mod_eq_of_lt]
  exact Nat.succ_lt_succ h

theorem toNat_le_attemptCounterMax (n : UInt32) : n.toNat ≤ attemptCounterMax := Nat.le_of_lt_succ n.toNat_lt

/-! ### The attempt that is settled on -/

namespace Step

/-- So many passing failures come first, and the result after them is settled on. -/
structure SettlesAt (step : Step σ Id ε π) (retries : ℕ) (s : σ) (last : ℕ) : Prop where
  allowed : last ≤ retries
  passing : ∀ k < last, (step.reports s k).isRetryable = true
  final : (step.reports s last).isRetryable = false ∨ last = retries

variable (step : Step σ Id ε π) (retries : ℕ) (s : σ)

theorem exists_settlesAt : ∃ last, step.SettlesAt retries s last := by
  have hends : ∃ k, (step.reports s k).isRetryable = false ∨ k = retries := ⟨retries, .inr rfl⟩
  exact ⟨Nat.find hends, Nat.find_min' hends (.inr rfl),
    fun k hk => eq_true_of_ne_false (not_or.mp (Nat.find_min hends hk)).1, Nat.find_spec hends⟩

variable {step retries s} {last : ℕ}

theorem SettlesAt.le_of_passing (h : step.SettlesAt retries s last) {n : ℕ} (hallowed : n ≤ retries)
    (hpassing : ∀ k < n, (step.reports s k).isRetryable = true) : n ≤ last := by
  by_contra hn
  rcases h.final with hsettled | rfl
  · exact absurd (hpassing last (Nat.lt_of_not_le hn)) (by rw [hsettled]; exact Bool.false_ne_true)
  · exact hn hallowed

theorem SettlesAt.unique {last' : ℕ} (h : step.SettlesAt retries s last) (h' : step.SettlesAt retries s last') :
    last' = last :=
  (h.le_of_passing h'.allowed h'.passing).antisymm (h'.le_of_passing h.allowed h.passing)

theorem SettlesAt.tail (h : step.SettlesAt (retries + 1) s (last + 1)) :
    step.SettlesAt retries (step.execute.run s).2 last where
  allowed := Nat.le_of_succ_le_succ h.allowed
  passing k hk := h.passing (k + 1) (Nat.succ_lt_succ hk)
  final := h.final.imp_right Nat.succ.inj

theorem SettlesAt.lastAttempt (h : step.SettlesAt retries s last) : step.LastAttempt retries s last := by
  -- on the calls before the last one
  induction last generalizing retries s with
  | zero =>
    rcases h.final with hsettled | rfl
    · exact lastAttempt_of_lasts hsettled
    · exact lastAttempt_of_noRetry
  | succ last ih =>
    cases retries with
    | zero => exact absurd h.allowed last.not_succ_le_zero
    | succ retries => exact (ih h.tail).succ (h.passing 0 last.succ_pos)

end Step

namespace Run

variable {step : Step σ Id ε π} {retries made last : ℕ} {s : σ}

theorem run_attempt_settlesAt (h : step.SettlesAt retries s last) (hroom : made + last < attemptCounterMax) :
    (attempt step.execute retries made).run.run s =
      pure (.ok ⟨made + (last + 1), step.reports s last⟩, step.stateAfter s (last + 1)) := by
  induction last generalizing retries made s with
  | zero => exact run_attempt_settled hroom (h.final.imp_right Eq.symm)
  | succ last ih =>
    cases retries with
    | zero => exact absurd h.allowed last.not_succ_le_zero
    | succ retries =>
      have hretry : (step.execute.run s).1.isRetryable = true := h.passing 0 last.succ_pos
      rw [run_attempt_again (by omega) hretry, ih h.tail (by omega), Nat.add_right_comm made 1, Nat.add_assoc made]
      rfl

theorem run_attempt_overrun {calls : ℕ} (hroom : made + calls = attemptCounterMax) (hallowed : calls ≤ retries)
    (hpassing : ∀ k < calls, (step.reports s k).isRetryable = true) :
    (attempt step.execute retries made).run.run s = pure (.error .attemptCounterFull, step.stateAfter s calls) := by
  induction calls generalizing retries made s with
  | zero => exact run_attempt_full _ _ hroom.not_lt s
  | succ calls ih =>
    cases retries with
    | zero => exact absurd hallowed calls.not_succ_le_zero
    | succ retries =>
      have hretry : (step.execute.run s).1.isRetryable = true := hpassing 0 calls.succ_pos
      rw [run_attempt_again (by omega) hretry,
        ih (by omega) (Nat.le_of_succ_le_succ hallowed) fun k hk => hpassing (k + 1) (Nat.succ_lt_succ hk)]
      rfl

end Run

/-! ### The loop -/

/-- Where the loop stands, with the state that the calls so far have left. -/
inductive Loop (σ ε π : Type) where
  | trying (attempts failures : UInt32) (s : σ)
  | ended (attempts : UInt32) (result : StepResult ε π) (s : σ)
  | attemptsFull (s : σ)
  | failuresFull (s : σ)

namespace Loop

/-- One turn of the loop: the attempt is counted before it is made, a passing failure after it. -/
def turn (policy : RetryPolicy) (step : Step σ Id ε π) : Loop σ ε π → Loop σ ε π
  | trying attempts failures s =>
    match counted attempts with
    | none => attemptsFull s
    | some attempts =>
      let called := step.execute.run s
      if called.1.isSuccess || !called.1.isRetryable then ended attempts called.1 called.2
      else
        match counted failures with
        | none => failuresFull called.2
        | some failures =>
          if policy.allowsRetry failures then trying attempts failures called.2 else ended attempts called.1 called.2
  | stopped => stopped

def after (policy : RetryPolicy) (step : Step σ Id ε π) (s : σ) (turns : ℕ) : Loop σ ε π :=
  (turn policy step)^[turns] (trying 0 0 s)

variable {policy : RetryPolicy} {step : Step σ Id ε π} {s : σ}

theorem after_succ (turns : ℕ) : after policy step s (turns + 1) = turn policy step (after policy step s turns) :=
  Function.iterate_succ_apply' _ turns _

theorem turn_settled {attempts failures : UInt32} (hroom : attempts.toNat < attemptCounterMax)
    (h : (step.execute.run s).1.isRetryable = false) :
    turn policy step (trying attempts failures s) =
      ended (attempts + 1) (step.execute.run s).1 (step.execute.run s).2 := by
  rw [turn, counted, if_pos hroom]
  dsimp only
  rw [h, Bool.not_false, Bool.or_true, if_pos rfl]

theorem turn_failed {attempts failures : UInt32} (hroom : attempts.toNat < attemptCounterMax)
    (hfailures : failures.toNat < attemptCounterMax) (h : (step.execute.run s).1.isRetryable = true) :
    turn policy step (trying attempts failures s) =
      if failures.toNat + 1 ≤ policy.maxRetries.toNat then trying (attempts + 1) (failures + 1) (step.execute.run s).2
      else ended (attempts + 1) (step.execute.run s).1 (step.execute.run s).2 := by
  have hsuccess : (step.execute.run s).1.isSuccess = false := by
    generalize (step.execute.run s).1 = result at h
    cases result with
    | transient => rfl
    | success | rejected => cases h
  rw [turn, counted, if_pos hroom]
  dsimp only
  rw [h, hsuccess, counted, if_pos hfailures]
  simp only [Bool.not_true, Bool.or_self, Bool.false_eq_true, if_false, RetryPolicy.allowsRetry, decide_eq_true_eq,
    UInt32.le_iff_toNat_le, toNat_add_one hfailures]

theorem turn_full {attempts failures : UInt32} (h : ¬ attempts.toNat < attemptCounterMax) :
    turn policy step (trying attempts failures s) = attemptsFull s := by
  rw [turn, counted, if_neg h]

/-! ### Runs of the loop -/

variable (policy step s) in
inductive Stands : ℕ → Loop σ ε π → Prop
  | trying {turns : ℕ} {count : UInt32} (counts : count.toNat = turns) (allowed : turns ≤ policy.maxRetries.toNat)
      (passing : ∀ k < turns, (step.reports s k).isRetryable = true) :
      Stands turns (.trying count count (step.stateAfter s turns))
  | ended {turns last : ℕ} {attempts : UInt32} (counts : attempts.toNat = last + 1) (made : last < turns)
      (settles : step.SettlesAt policy.maxRetries.toNat s last) :
      Stands turns (.ended attempts (step.reports s last) (step.stateAfter s (last + 1)))
  | attemptsFull {turns : ℕ} (made : attemptCounterMax < turns)
      (unbounded : policy.maxRetries.toNat = attemptCounterMax)
      (passing : ∀ k < attemptCounterMax, (step.reports s k).isRetryable = true) :
      Stands turns (.attemptsFull (step.stateAfter s attemptCounterMax))

theorem Stands.turn {turns : ℕ} {loop : Loop σ ε π} (h : Stands policy step s turns loop) :
    Stands policy step s (turns + 1) (turn policy step loop) := by
  cases h with
  | @trying count counts allowed passing =>
    by_cases hroom : count.toNat < attemptCounterMax
    · have hcounts : (count + 1).toNat = turns + 1 := by rw [toNat_add_one hroom, counts]
      cases hretry : (step.reports s turns).isRetryable with
      | false =>
        rw [turn_settled hroom hretry, ← Step.stateAfter_succ']
        exact .ended hcounts turns.lt_succ_self ⟨allowed, passing, .inl hretry⟩
      | true =>
        rw [turn_failed hroom hroom hretry, ← Step.stateAfter_succ', counts]
        split
        · rename_i hallowed
          refine .trying hcounts hallowed fun k hk => ?_
          rcases Nat.lt_succ_iff_lt_or_eq.mp hk with hk | rfl
          · exact passing k hk
          · exact hretry
        · rename_i hallowed
          exact .ended hcounts turns.lt_succ_self ⟨allowed, passing, .inr (by omega)⟩
    · -- the failures are as many as can be counted and at most the retries, so the retries are as many too
      have hfull : count.toNat = attemptCounterMax :=
        (toNat_le_attemptCounterMax count).antisymm (Nat.le_of_not_lt hroom)
      obtain rfl : turns = attemptCounterMax := counts.symm.trans hfull
      rw [turn_full hroom]
      exact .attemptsFull (Nat.lt_succ_self _) ((toNat_le_attemptCounterMax _).antisymm allowed) passing
  | ended counts made settles => exact .ended counts (made.trans turns.lt_succ_self) settles
  | attemptsFull made unbounded passing => exact .attemptsFull (made.trans turns.lt_succ_self) unbounded passing

variable (policy step s) in
theorem stands_after (turns : ℕ) : Stands policy step s turns (after policy step s turns) := by
  induction turns with
  | zero => exact .trying rfl (Nat.zero_le _) fun k hk => absurd hk k.not_lt_zero
  | succ turns ih =>
    rw [after_succ]
    exact ih.turn

theorem after_ne_failuresFull (turns : ℕ) (s' : σ) : after policy step s turns ≠ failuresFull s' := by
  intro h
  cases h ▸ stands_after policy step s turns

theorem after_settlesAt {last turns : ℕ} (h : step.SettlesAt policy.maxRetries.toNat s last)
    (hroom : last < attemptCounterMax) (hturns : last < turns) :
    ∃ attempts : UInt32, attempts.toNat = last + 1 ∧
      after policy step s turns = ended attempts (step.reports s last) (step.stateAfter s (last + 1)) := by
  have hstands := stands_after policy step s turns
  generalize after policy step s turns = loop at hstands ⊢
  cases hstands with
  | trying counts allowed passing => exact absurd (h.le_of_passing allowed passing) hturns.not_ge
  | @ended last' attempts counts made settles =>
    obtain rfl := h.unique settles
    exact ⟨attempts, counts, rfl⟩
  | attemptsFull made unbounded passing => exact absurd (h.le_of_passing unbounded.ge passing) hroom.not_ge

/-- The policy grants as many retries as can be counted, and as many attempts are passing failures. -/
def Overruns (policy : RetryPolicy) (step : Step σ Id ε π) (s : σ) : Prop :=
  policy.maxRetries.toNat = attemptCounterMax ∧ ∀ k < attemptCounterMax, (step.reports s k).isRetryable = true

theorem Overruns.after (h : Overruns policy step s) {turns : ℕ} (hturns : attemptCounterMax < turns) :
    after policy step s turns = attemptsFull (step.stateAfter s attemptCounterMax) := by
  have hstands := stands_after policy step s turns
  generalize Loop.after policy step s turns = loop at hstands ⊢
  cases hstands with
  | trying counts => exact absurd (counts ▸ toNat_le_attemptCounterMax _) hturns.not_ge
  | @ended last attempts counts made settles =>
    have hlast : last < attemptCounterMax := counts.symm.trans_le (toNat_le_attemptCounterMax attempts)
    exact absurd (settles.le_of_passing h.1.ge h.2) hlast.not_ge
  | attemptsFull => rfl

theorem exists_attemptsFull_iff :
    (∃ turns s', after policy step s turns = attemptsFull s') ↔ Overruns policy step s := by
  constructor
  · rintro ⟨turns, s', h⟩
    have hstands := stands_after policy step s turns
    generalize after policy step s turns = loop at h hstands
    cases hstands with
    | trying | ended => cases h
    | attemptsFull made unbounded passing => exact ⟨unbounded, passing⟩
  · exact fun h => ⟨attemptCounterMax + 1, _, h.after (Nat.lt_succ_self attemptCounterMax)⟩

theorem Overruns.of_full {last : ℕ} (h : step.SettlesAt policy.maxRetries.toNat s last)
    (hfull : attemptCounterMax ≤ last) : Overruns policy step s :=
  ⟨(toNat_le_attemptCounterMax _).antisymm (hfull.trans h.allowed), fun k hk => h.passing k (hk.trans_le hfull)⟩

/-- The failures of a step never outgrow their count. Its attempts do exactly if the retries are as many as the count
holds and as many attempts are passing failures: one more is due then, and the run is broken off. In every other case
the loop ends with the last attempt, after at most one more than the retries, with as many counted as were made. -/
theorem counts_hold_iff (policy : RetryPolicy) (step : Step σ Id ε π) (s : σ) :
    (∀ turns s', after policy step s turns ≠ failuresFull s') ∧
    ((∃ turns s', after policy step s turns = attemptsFull s') ↔ Overruns policy step s) ∧
    (Overruns policy step s →
      (Run.attempt step.execute policy.maxRetries.toNat 0).run.run s =
        pure (.error .attemptCounterFull, step.stateAfter s attemptCounterMax)) ∧
    (¬ Overruns policy step s → ∃ last ≤ policy.maxRetries.toNat,
      step.LastAttempt policy.maxRetries.toNat s last ∧
      (∀ turns, last < turns → ∃ attempts : UInt32, attempts.toNat = last + 1 ∧
        after policy step s turns = ended attempts (step.reports s last) (step.stateAfter s (last + 1))) ∧
      (Run.attempt step.execute policy.maxRetries.toNat 0).run.run s =
        pure (.ok ⟨last + 1, step.reports s last⟩, step.stateAfter s (last + 1))) := by
  refine ⟨after_ne_failuresFull, exists_attemptsFull_iff, fun h => ?_, fun hover => ?_⟩
  · have hmade : 0 + attemptCounterMax = attemptCounterMax := Nat.zero_add attemptCounterMax
    exact Run.run_attempt_overrun hmade h.1.ge h.2
  · obtain ⟨last, hlast⟩ := step.exists_settlesAt policy.maxRetries.toNat s
    have hroom : last < attemptCounterMax := Nat.lt_of_not_le fun hfull => hover (.of_full hlast hfull)
    have hrun := Run.run_attempt_settlesAt hlast ((Nat.zero_add last).trans_lt hroom)
    rw [Nat.zero_add] at hrun
    exact ⟨last, hlast.allowed, hlast.lastAttempt, fun turns hturns => after_settlesAt hlast hroom hturns, hrun⟩

open Assembly

theorem stateAfter_notice (calls : ℕ) : notice.stateAfter 0 calls = calls := by
  induction calls with
  | zero => rfl
  | succ calls ih => exact (notice.stateAfter_succ' 0 calls).trans (congrArg (· + 1) ih)

/-- One retry less than can be counted: every attempt is counted, and the count is full in the end. -/
theorem counts_hold_iff_notice :
    ¬ Overruns (.fixed 4294967294 0) notice 0 ∧
    (Run.attempt notice.execute (4294967294 : UInt32).toNat 0).run.run 0 =
      pure (.ok ⟨attemptCounterMax, .transient "offline" none⟩, attemptCounterMax) := by
  have hover : ¬ Overruns (.fixed 4294967294 0) notice 0 := fun h => absurd h.1 (by decide)
  obtain ⟨last, -, hlast, -, hrun⟩ := (counts_hold_iff (.fixed 4294967294 0) notice 0).2.2.2 hover
  have hsettles : notice.SettlesAt (4294967294 : UInt32).toNat 0 (4294967294 : UInt32).toNat :=
    ⟨le_rfl, fun _ _ => rfl, .inr rfl⟩
  obtain rfl : last = (4294967294 : UInt32).toNat :=
    Nat.succ.inj (Nat.cast_injective (R := ℕ∞) (hlast.trans hsettles.lastAttempt.symm))
  rw [stateAfter_notice] at hrun
  exact ⟨hover, hrun⟩

/-- As many retries as can be counted: the policy allows another attempt after the last failure that can be counted,
and that attempt has no count. -/
theorem notice_overruns :
    (RetryPolicy.fixed 4294967295 0).allowsRetry 4294967295 = true ∧
    after (.fixed 4294967295 0) notice 0 (attemptCounterMax + 1) = attemptsFull attemptCounterMax ∧
    (Run.attempt notice.execute (4294967295 : UInt32).toNat 0).run.run 0 =
      pure (.error .attemptCounterFull, attemptCounterMax) := by
  have hover : Overruns (.fixed 4294967295 0) notice 0 := ⟨rfl, fun _ _ => rfl⟩
  have hafter := hover.after (Nat.lt_succ_self attemptCounterMax)
  have hmade : 0 + attemptCounterMax = attemptCounterMax := Nat.zero_add attemptCounterMax
  have hrun := Run.run_attempt_overrun hmade hover.1.ge hover.2
  rw [stateAfter_notice] at hafter hrun
  exact ⟨by decide, hafter, hrun⟩

end Loop

end Missions
