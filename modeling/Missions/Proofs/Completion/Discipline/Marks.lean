import Missions.Proofs.Completion.Compensation.Records
import Missions.Proofs.Completion.Footprint
import Missions.Proofs.Ledger.Outage
import Missions.Proofs.Saga.Minutes

/-! What a step keeps as the state after its write is there exactly once an attempt of it has succeeded and written,
and then together with the state before. -/

namespace Missions

/-! ### Attempts in the minutes -/

section

variable {σ ε π : Type} {e : Minute ε π} {position : Nat}

/-- The call was an attempt of the step at a position that succeeded, and a write was performed for it. -/
structure Minute.Mutates (e : Minute ε π) (position : Nat) : Prop where
  call : e.call = .execute position
  succeeded : e.result.isSuccess = true
  performed : e.performed ≠ []

theorem Minute.Mutates.isRetryable_eq_false (h : e.Mutates position) : e.result.isRetryable = false :=
  Bool.eq_false_iff.2 fun hretry =>
    Bool.false_ne_true ((StepResult.isSuccess_of_isRetryable hretry).symm.trans h.succeeded)

theorem Minute.Mutates.not_of_ne {position' : Nat} (h : e.Mutates position) (hne : position' ≠ position) :
    ¬ e.Mutates position' := fun h' => hne (StepCall.execute.inj (h'.call.symm.trans h.call))

namespace Minutes

variable {entries : List (Minute ε π)}

def Attempted (entries : List (Minute ε π)) (position : Nat) : Prop := ∃ e ∈ entries, e.call = .execute position

/-- An attempt of the step at a position has succeeded with a write. -/
def Mutated (entries : List (Minute ε π)) (position : Nat) : Prop := ∃ e ∈ entries, e.Mutates position

theorem Mutated.attempted (h : Mutated entries position) : Attempted entries position := by
  obtain ⟨e, he, hmutates⟩ := h
  exact ⟨e, he, hmutates.call⟩

theorem not_attempted_nil : ¬ Attempted ([] : List (Minute ε π)) position := by
  rintro ⟨e, he, -⟩
  exact List.not_mem_nil he

theorem not_mutated_nil : ¬ Mutated ([] : List (Minute ε π)) position := fun h => not_attempted_nil h.attempted

theorem attempted_append :
    Attempted (entries ++ [e]) position ↔ Attempted entries position ∨ e.call = .execute position := by
  simp [Attempted, or_and_right, exists_or]

theorem mutated_append : Mutated (entries ++ [e]) position ↔ Mutated entries position ∨ e.Mutates position := by
  simp [Mutated, or_and_right, exists_or]

theorem mutated_append_of_not (h : ¬ e.Mutates position) :
    Mutated (entries ++ [e]) position ↔ Mutated entries position := by
  rw [mutated_append, or_iff_left h]

theorem Pending.of_append (h : Pending (entries ++ [e]) position) : Pending entries position :=
  fun e' he' => h e' (List.mem_append_left _ he')

theorem not_pending_append (hcall : e.call = .execute position) (hlast : e.result.isRetryable = false) :
    ¬ Pending (entries ++ [e]) position := fun h =>
  Bool.false_ne_true (hlast.symm.trans (h e (List.mem_append_right _ List.mem_cons_self) hcall))

theorem Pending.not_mutated (h : Pending entries position) : ¬ Mutated entries position := by
  rintro ⟨e, he, hmutates⟩
  exact Bool.false_ne_true (hmutates.isRetryable_eq_false.symm.trans (h e he hmutates.call))

theorem Succeeded.not_pending (h : Succeeded entries position) : ¬ Pending entries position := by
  obtain ⟨e, he, hcall, hok⟩ := h
  intro hpending
  exact Bool.false_ne_true ((StepResult.isSuccess_of_isRetryable (hpending e he hcall)).symm.trans hok)

end Minutes

end

/-! ### Snapshots -/

namespace Context

/-- The total after a reward is kept exactly if the reward was made, and then with the total before and the amount,
which is positive and all that lies between. -/
inductive RewardMarks.Sound (made : Prop) : RewardMarks → Prop
  | unmade (hmade : ¬ made) (before : Option Int) : Sound made ⟨before, none, none⟩
  | whole (hmade : made) (before : Int) {amount : Int} (hamount : 0 < amount) :
      Sound made ⟨some before, some (before + amount), some amount⟩

/-- What a closed record is afterwards is kept exactly if one of the two closing steps has closed it: its status, which
is completed and was in progress, and if the participant was advanced its standing before and after. -/
inductive ClosingMarks.Sound (advanced closed : Prop) : ClosingMarks → Prop
  | unclosed (hadvanced : ¬ advanced) (hclosed : ¬ closed) (target : Option ExecutionStatus) (progress : Option UInt8)
      (participant : Option ParticipantStatus) : Sound advanced closed ⟨target, none, progress, none, participant, none⟩
  | advanced (hadvanced : advanced) (hclosed : ¬ closed) (progress progress' : UInt8)
      (participant participant' : ParticipantStatus) : Sound advanced closed
        ⟨some .inProgress, some .completed, some progress, some progress', some participant, some participant'⟩
  | closed (hadvanced : ¬ advanced) (hclosed : closed) (progress : Option UInt8)
      (participant : Option ParticipantStatus) : Sound advanced closed
        ⟨some .inProgress, some .completed, progress, none, participant, none⟩

theorem RewardMarks.Sound.before {made : Prop} {marks : RewardMarks} (h : marks.Sound made) (hmade : ¬ made)
    (before : Int) : ({ marks with before := some before } : RewardMarks).Sound made := by
  cases h with
  | unmade => exact .unmade hmade (some before)
  | whole hmade' => exact absurd hmade' hmade

theorem ClosingMarks.Sound.begun {advanced closed : Prop} {marks marks' : ClosingMarks}
    (h : marks.Sound advanced closed) (hadvanced : ¬ advanced) (hclosed : ¬ closed)
    (htarget : marks'.targetAfter = marks.targetAfter) (hprogress : marks'.progressAfter = marks.progressAfter)
    (hparticipant : marks'.participantAfter = marks.participantAfter) : marks'.Sound advanced closed := by
  obtain ⟨target, targetAfter, progress, progressAfter, participant, participantAfter⟩ := marks'
  cases h with
  | unclosed =>
    obtain rfl := htarget
    obtain rfl := hprogress
    obtain rfl := hparticipant
    exact .unclosed hadvanced hclosed target progress participant
  | advanced hadvanced' => exact absurd hadvanced' hadvanced
  | closed _ hclosed' => exact absurd hclosed' hclosed

theorem ClosingMarks.Sound.close {advanced closed closed' : Prop} {marks : ClosingMarks}
    (h : marks.Sound advanced closed) (hadvanced : ¬ advanced) (hclosed : ¬ closed) (hclosed' : closed') :
    ({ marks with targetBefore := some .inProgress, targetAfter := some .completed } : ClosingMarks).Sound
      advanced closed' := by
  cases h with
  | unclosed => exact .closed hadvanced hclosed' _ _
  | advanced hadvanced' => exact absurd hadvanced' hadvanced
  | closed _ hclosed => exact absurd hclosed ‹¬ closed›

/-- Before a call that grants, adds or claims, what it is to change is kept as the books show it. -/
def KeepsBefore (ctx : Context) (books : Books) : Call → Prop
  | .grantExperience grant =>
    ctx.kept Snapshot.userTotalBefore = some (books.experience grant.user).total ∧
      ctx.kept Snapshot.userLevelBefore = some (books.experience grant.user).level
  | .addGuildExperience guild _ _ =>
    ctx.kept Snapshot.guildTotalBefore = some (books.guildExperience guild).total ∧
      ctx.kept Snapshot.guildLevelBefore = some (books.guildExperience guild).level
  | .completeExecution id => ∃ x p, books.executions.get? id = some x ∧ books.participants.get? x.participant = some p ∧
      ctx.kept Snapshot.targetBefore = some x.status ∧ ctx.kept Snapshot.progressBefore = some p.progress ∧
      ctx.kept Snapshot.participantBefore = some p.status
  | .completeInstance id => ∃ i, books.instances.get? id = some i ∧ ctx.kept Snapshot.targetBefore = some i.status
  | _ => True

theorem Marked.guildReward {names : List String} {ctx ctx' : Context} (h : Marked names ctx ctx')
    (hnames : ∀ name ∈ GuildReward.marks, name ∉ names) : ctx'.guildReward = ctx.guildReward := by
  have hkept {t : SnapshotType} (key : SnapshotKey t) (hkey : key.name ∈ GuildReward.marks) :=
    h.kept key (hnames _ hkey)
  rw [Context.guildReward, Context.guildReward, hkept _ (by decide), hkept _ (by decide), hkept _ (by decide)]

end Context

/-! ### Discipline -/

/-! Where the steps stand among those of a completion. -/

def Loading.position : Nat := 0
def UserReward.position : Nat := 1
def Advance.position : Nat := 2
def Closing.position : Nat := 3
def GuildReward.position : Nat := 4
def Sharing.position : Nat := 5

/-- A context of a completion, with the minutes of the run that has come to it. -/
abbrev CompletionMinutes : Type := Minutes Context CompletionError Receipt

/-- What is kept is what the minutes tell, and no more than one of the closing steps was attempted. -/
structure Minutes.Disciplined (h : CompletionMinutes) : Prop where
  user : h.state.reward.Sound (Mutated h.entries UserReward.position)
  guild : h.state.guildReward.Sound (Mutated h.entries GuildReward.position)
  closing : h.state.closing.Sound (Mutated h.entries Advance.position) (Mutated h.entries Closing.position)
  once : ¬ (Attempted h.entries Advance.position ∧ Attempted h.entries Closing.position)

namespace Discipline

/-- The protocol of a disciplined caller that is alone with the books. -/
def protocol (may : CompletionError → Prop) : Protocol CompletionMinutes Books where
  allowed h books c := h.Disciplined ∧ h.state.KeepsBefore books c
  answered _ := Books.Answers may

/-- The terms of a step's procedure after the minutes so far, with the writes noted that were performed for it. -/
abbrev terms (may : CompletionError → Prop) (entries : List (Minute CompletionError Receipt)) :
    Protocol Context (Books × List Call) :=
  ((protocol may).through fun ctx => ⟨ctx, entries⟩).noting .performed

end Discipline

end Missions
