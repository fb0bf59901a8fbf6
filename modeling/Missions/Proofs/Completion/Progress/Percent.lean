import Mathlib.Order.MinMax
import Missions.Proofs.Completion.Job

/-! The progress of a participant is worked out in words of 64 bits and handed out in eight; nothing is lost on the
way. -/

namespace Missions.Advance

/-! ### Steps that may not fit -/

def times? (a b : UInt64) : Option UInt64 := if a.toNat * b.toNat < UInt64.size then some (a * b) else none

def over? (a b : UInt64) : Option UInt64 := if b = 0 then none else some (a / b)

def byte? (n : UInt64) : Option UInt8 := if n.toNat < UInt8.size then some n.toUInt8 else none

/-- The percentage, given up at the first step that does not fit. -/
def progressPercent? (completed total : UInt32) : Option UInt8 := do
  let hundredfold ← times? completed.toUInt64 100
  let share ← over? hundredfold (max total 1).toUInt64
  byte? (min share 100)

variable (completed total : UInt32)

theorem hundredfold_lt : completed.toUInt64.toNat * (100 : UInt64).toNat < UInt64.size := by
  have hcompleted := completed.toNat_lt
  rw [UInt32.toNat_toUInt64]
  change completed.toNat * 100 < 18446744073709551616
  omega

theorem toNat_hundredfold : (completed.toUInt64 * 100).toNat = 100 * completed.toNat := by
  rw [UInt64.toNat_mul, Nat.mod_eq_of_lt (hundredfold_lt completed), UInt32.toNat_toUInt64, Nat.mul_comm]
  rfl

theorem toNat_required : (max total 1).toUInt64.toNat = max total.toNat 1 := by
  rw [UInt32.toNat_toUInt64, UInt32.toNat_max, UInt32.toNat_one]

theorem required_ne_zero : (max total 1).toUInt64 ≠ 0 := by
  intro hzero
  have hrequired := toNat_required total
  rw [hzero, UInt64.toNat_zero] at hrequired
  omega

theorem toNat_share :
    (min (completed.toUInt64 * 100 / (max total 1).toUInt64) 100).toNat =
      min 100 (100 * completed.toNat / max total.toNat 1) := by
  rw [UInt64.toNat_min, UInt64.toNat_div, toNat_hundredfold, toNat_required, Nat.min_comm]
  rfl

theorem share_lt : (min (completed.toUInt64 * 100 / (max total 1).toUInt64) 100).toNat < UInt8.size := by
  rw [toNat_share]
  exact (Nat.min_le_left _ _).trans_lt (by decide)

theorem progressPercent_eq :
    progressPercent completed total = (min (completed.toUInt64 * 100 / (max total 1).toUInt64) 100).toUInt8 := by
  rw [progressPercent, if_pos (UInt64.lt_iff_toNat_lt.2 (share_lt completed total))]

theorem progressPercent?_eq : progressPercent? completed total = some (progressPercent completed total) := by
  have hproduct : times? completed.toUInt64 100 = some (completed.toUInt64 * 100) := if_pos (hundredfold_lt completed)
  have hquotient : over? (completed.toUInt64 * 100) (max total 1).toUInt64 =
      some (completed.toUInt64 * 100 / (max total 1).toUInt64) := if_neg (required_ne_zero total)
  rw [progressPercent?, hproduct, Option.bind_eq_bind, Option.bind_some, hquotient, Option.bind_some, byte?,
    if_pos (share_lt completed total), progressPercent_eq]

theorem toNat_progressPercent :
    (progressPercent completed total).toNat = min 100 (100 * completed.toNat / max total.toNat 1) := by
  rw [progressPercent_eq, UInt64.toNat_toUInt8, Nat.mod_eq_of_lt (share_lt completed total), toNat_share]

/-! ### The whole -/

theorem progressPercent_mono {completed completed' : UInt32} (h : completed ≤ completed') :
    progressPercent completed total ≤ progressPercent completed' total := by
  have hle : 100 * completed.toNat ≤ 100 * completed'.toNat := Nat.mul_le_mul_left 100 (UInt32.le_iff_toNat_le.1 h)
  rw [UInt8.le_iff_toNat_le, toNat_progressPercent, toNat_progressPercent]
  exact min_le_min_left 100 (Nat.div_le_div_right hle)

theorem progressPercent_anti {total total' : UInt32} (h : total ≤ total') :
    progressPercent completed total' ≤ progressPercent completed total := by
  have hle : max total.toNat 1 ≤ max total'.toNat 1 := max_le_max_right 1 (UInt32.le_iff_toNat_le.1 h)
  rw [UInt8.le_iff_toNat_le, toNat_progressPercent, toNat_progressPercent]
  exact min_le_min_left 100 (Nat.div_le_div_left hle (by omega))

theorem progressPercent_eq_whole_iff : progressPercent completed total = 100 ↔ max total 1 ≤ completed := by
  have hpositive : 0 < max total.toNat 1 := by omega
  have hwhole : progressPercent completed total = 100 ↔ (progressPercent completed total).toNat = 100 :=
    UInt8.toNat_inj.symm
  rw [hwhole, toNat_progressPercent, min_eq_left_iff, Nat.le_div_iff_mul_le hpositive, UInt32.le_iff_toNat_le,
    UInt32.toNat_max, UInt32.toNat_one]
  omega

/-- The participant that is written is completed if all required executions are, and otherwise stands as before. -/
theorem run_recordProgress (p : Participant) (ctx : Context) :
    (recordProgress p total).run.run ctx = .call ctx (.countExecutions p.id .completed) fun
      | .error e => .done (.error e, ctx)
      | .ok (completed : UInt32) =>
        let updated : Participant :=
          { p with
            progress := progressPercent completed total
            status := if max total 1 ≤ completed then .completed else p.status }
        .call ctx (.saveParticipant updated) fun
          | .error e => .done (.error e, ctx)
          | .ok _ => .done (.ok updated, ctx) := by
  rw [recordProgress, Procedure.run_bind, Procedure.run_ask, Program.call_bind]
  congr 1
  funext answer
  cases answer with
  | error e => rfl
  | ok completed =>
    have hstatus : (if progressPercent completed total ≥ 100 then ParticipantStatus.completed else p.status) =
        if max total 1 ≤ completed then .completed else p.status :=
      if_congr ((whole_le_progressPercent_iff completed total).trans (progressPercent_eq_whole_iff completed total))
        rfl rfl
    rw [Program.done_bind]
    dsimp only
    rw [hstatus]
    rw [Procedure.run_bind, Procedure.run_ask, Program.call_bind]
    congr 1
    funext answer
    cases answer <;> rfl

/-- The progress of a participant is the exact percentage of the required executions, rounded down and cut off at 100,
and no step on the way to it overflows. It grows with the executions that are completed and shrinks with those that
are required, and it is the whole exactly if as many are completed as are required: then, and not before, the
participant is written as completed. -/
theorem progressPercent_exact (completed total : UInt32) :
    progressPercent? completed total = some (progressPercent completed total) ∧
    (progressPercent completed total).toNat = min 100 (100 * completed.toNat / max total.toNat 1) ∧
    (∀ completed', completed ≤ completed' → progressPercent completed total ≤ progressPercent completed' total) ∧
    (∀ total', total ≤ total' → progressPercent completed total' ≤ progressPercent completed total) ∧
    (progressPercent completed total = 100 ↔ max total 1 ≤ completed) ∧
    ∀ (p : Participant) (ctx : Context),
      (recordProgress p total).run.run ctx = .call ctx (.countExecutions p.id .completed) fun
        | .error e => .done (.error e, ctx)
        | .ok (completed : UInt32) =>
          let updated : Participant :=
            { p with
              progress := progressPercent completed total
              status := if max total 1 ≤ completed then .completed else p.status }
          .call ctx (.saveParticipant updated) fun
            | .error e => .done (.error e, ctx)
            | .ok _ => .done (.ok updated, ctx) :=
  ⟨progressPercent?_eq completed total, toNat_progressPercent completed total,
    fun _ h => progressPercent_mono total h, fun _ h => progressPercent_anti completed h,
    progressPercent_eq_whole_iff completed total, run_recordProgress total⟩

/-- One execution short of the most that can be required, the progress is 99, and it grows to the whole with the last
one. -/
theorem progressPercent_exact_brink :
    (progressPercent 4294967294 4294967295).toNat = 99 ∧
    progressPercent 4294967294 4294967295 ≤ progressPercent 4294967295 4294967295 ∧
    progressPercent 4294967295 4294967295 = 100 := by
  obtain ⟨-, hexact, hmono, -⟩ := progressPercent_exact 4294967294 4294967295
  obtain ⟨-, -, -, -, hwhole, -⟩ := progressPercent_exact 4294967295 4294967295
  exact ⟨hexact, hmono _ (by decide), hwhole.2 (by decide)⟩

end Missions.Advance
