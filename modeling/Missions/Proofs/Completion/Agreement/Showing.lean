import Missions.Proofs.Completion.Footprint
import Missions.Proofs.Completion.Publication
import Missions.Proofs.Completion.Undisturbed.Ending
import Missions.Proofs.Saga.Completing

namespace Missions

open Procedure

variable {may : CompletionError → Prop} {ctx : Context} {books : Books}

/-! ### What a step shows -/

/-- The levels that a grant shows: those before and after it, if there is anything to grant. -/
def Books.levels (books : Books) (user : String) (amount : Int) : Context.Shown :=
  if amount ≤ 0 then {}
  else
    { levelBefore := some (books.experience user).level
      levelAfter := some ((books.rewarded user amount).experience user).level }

theorem Books.levels_eq_levels (books : Books) (user : String) (amount : Int) : books.levels user amount =
    { levelBefore := (books.levels user amount).levelBefore, levelAfter := (books.levels user amount).levelAfter } := by
  rw [levels]
  split <;> rfl

@[simp] theorem Context.shown_keep {t : SnapshotType} (ctx : Context) (key : SnapshotKey t) (v : t.Value) :
    (ctx.keep key v).shown = ctx.shown := rfl

namespace Loading

theorem meets_load_shown (r : Request) : load.Meets (Books.protocol may Context)
    (fun _ ctx' _ => ctx'.shown = {}) (.start r) books := by
  refine confined_load.preserves (K := fun ctx _ => ctx.shown = {}) ⟨fun hK _ => ⟨trivial, fun _ _ _ => hK⟩, ?_⟩ _ _ rfl
  exact fun hK hloads => hloads.shown.trans hK

end Loading

namespace UserReward

/-- Attempts to grant experience may have shown the level before, and nothing else. -/
def Untold (ctx : Context) : Prop :=
  ctx.shown = {} ∨ 0 < ctx.userEarned ∧ ∃ level, ctx.shown = { levelBefore := level }

theorem meets_grant_shown (h : Untold ctx) : grant.Meets (Books.protocol may Context) (Either
    (fun ctx' _ => ctx'.shown = books.levels ctx.request.user ctx.userEarned) fun _ ctx' _ => Untold ctx') ctx
    books := by
  simp only [grant, meets_bind, meets_get]
  by_cases hamount : ctx.userEarned ≤ 0
  · have hshown : ctx.shown = {} := h.resolve_right fun h => absurd h.1 (Int.not_lt.2 hamount)
    simp only [if_pos hamount, meets_pure, Either, Books.levels]
    exact hshown
  · have hearned : 0 < ctx.userEarned := Int.not_le.1 hamount
    have hlevel : ∃ level, ctx.shown = { levelBefore := level } := h.elim (fun h => ⟨none, h⟩) (·.2)
    obtain ⟨level, hshown⟩ := hlevel
    have hprogress : ctx.progress = none := congrArg Context.Shown.progress hshown
    have hfeed : ctx.feed = none := congrArg Context.Shown.feed hshown
    have hafter : ctx.levelAfter = none := congrArg Context.Shown.levelAfter hshown
    simp only [if_neg hamount, meets_bind, meets_ask_books, ne_eq, reduceCtorEq, not_false_eq_true, implies_true,
      meets_keep, meets_modify, meets_pure, Either, Books.perform, Books.levels, Books.rewarded]
    refine ⟨⟨?_, fun e _ => .inr ⟨hearned, ?_⟩⟩, fun e _ => h⟩
    · simp only [Context.shown, Context.keep, Context.withLevelBefore, Context.withLevelAfter, hprogress, hfeed]
      rfl
    · refine ⟨some (books.experience ctx.request.user).level, ?_⟩
      simp only [Context.shown, Context.keep, Context.withLevelBefore, hprogress, hfeed, hafter]

end UserReward

namespace Advance

variable {m : Mission} {p : Participant} {x : Execution}

theorem shown_begun (ctx : Context) (p : Participant) (x : Execution) : (begun ctx p x).shown = ctx.shown := by
  simp only [begun, Context.shown_keep]

theorem shown_ended (ctx : Context) (updated : Participant) :
    (ended ctx updated).shown = { ctx.shown with progress := some updated.progress } := by
  have hparticipant (ctx : Context) : ((ctx.withExecutionStatus .completed).withParticipant updated).shown =
      { ctx.shown with progress := some updated.progress } := rfl
  simp only [ended, hparticipant, Context.shown_keep]

/-- An attempt that succeeds shows the progress of the stored participant, and one that fails shows nothing. -/
theorem meets_update_shown (hm : ctx.mission = some m) (hp : ctx.participant = some p) (hx : ctx.execution = some x) :
    update.Meets (Books.protocol may Context) (Either
      (fun ctx' books' => ∃ updated, books'.participants.get? p.id = some updated ∧
        ctx'.shown = { ctx.shown with progress := some updated.progress })
      fun _ ctx' _ => ctx'.shown = ctx.shown) ctx books := by
  refine meets_of_attempt hm hp hx fun r ctx' g h => ?_
  cases h with
  | lost | refused | released | stuck => exact shown_begun ctx p x
  | closed hclaimed hupdated =>
    subst hupdated
    refine ⟨_, Table.get?_insert_self _ _ _, ?_⟩
    rw [shown_ended, shown_begun]

end Advance

namespace Closing

theorem meets_close_shown : close.Meets (Books.protocol may Context) (fun _ ctx' _ => ctx'.shown = ctx.shown) ctx
    books := by
  rw [close, meets_bind, meets_get]
  refine .require_bind rfl fun i _ => ?_
  rw [meets_bind, meets_keep]
  refine .ask_bind (by simp) (fun e _ => ctx.shown_keep _ _) (.check_bind (ctx.shown_keep _ _) fun _ => ?_)
  simp only [meets_bind, meets_keep, meets_modify, meets_pure]
  rfl

end Closing

namespace GuildReward

theorem meets_grant_shown : grant.Meets (Books.protocol may Context) (fun _ ctx' _ => ctx'.shown = ctx.shown) ctx
    books := by
  rw [grant, meets_bind, meets_get]
  refine .require_bind rfl fun guild _ => ?_
  dsimp only
  split
  · rw [meets_pure]
  · rw [credit, bind_assoc, meets_bind, meets_get]
    dsimp only
    rw [bind_assoc]
    refine .require_bind rfl fun mission _ => .ask_bind (by simp) (fun e _ => rfl) ?_
    simp only [meets_bind, meets_keep, meets_pure, meets_ask_books, ne_eq, reduceCtorEq, not_false_eq_true,
      implies_true, Context.shown_keep, and_self]

end GuildReward

end Missions
