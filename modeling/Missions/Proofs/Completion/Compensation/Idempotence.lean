import Missions.Proofs.Completion.Compensation.Reverting
import Missions.Proofs.Saga.Serving
import Missions.Rehearsal.Fixture

namespace Missions

open Procedure

variable {ctx ctx' : Context} {books : Books}

/-! ### The second time -/

namespace UserReward

theorem restoration_alike (h : ctx.UndoneAlike ctx') (books : Books) :
    restoration ctx' books = restoration ctx books := by
  rw [restoration, guard, h.reward, h.request, h.grantOf]
  rfl

theorem store_restoration_again :
    (restoration ctx (restoration ctx books).store).store = (restoration ctx books).store :=
  congrArg (fun totals => { books with userTotals := totals }) Guard.store_ofTotal_again

theorem restoration_again (hexact : ctx.reward.Exact) :
    restoration ctx (restoration ctx books).store = (restoration ctx books).quiet := by
  have hagain : (guard ctx (restoration ctx books).store).settle = (guard ctx books).settle.quiet :=
    Guard.ofTotal_again hexact
  rw [restoration, hagain]
  rfl

end UserReward

namespace GuildReward

variable {guild mission : Int}

theorem restoration_alike (h : ctx.UndoneAlike ctx') (books : Books) :
    restoration guild mission ctx' books = restoration guild mission ctx books := by
  rw [restoration, guard, h.guildReward, h.request]
  rfl

theorem store_restoration_again :
    (restoration guild mission ctx (restoration guild mission ctx books).store).store =
      (restoration guild mission ctx books).store :=
  congrArg (fun totals => { books with guildTotals := totals }) Guard.store_ofTotal_again

theorem restoration_again (hexact : ctx.guildReward.Exact) :
    restoration guild mission ctx (restoration guild mission ctx books).store =
      (restoration guild mission ctx books).quiet := by
  have hagain : (guard guild mission ctx (restoration guild mission ctx books).store).settle =
      (guard guild mission ctx books).settle.quiet := Guard.ofTotal_again hexact
  rw [restoration, hagain]
  rfl

end GuildReward

namespace Closing

variable {id : Int}

theorem restoration_alike (h : ctx.UndoneAlike ctx') (books : Books) :
    restoration id ctx' books = restoration id ctx books := by
  rw [restoration, guard, h.closing]
  rfl

theorem restoration_again :
    restoration id ctx (restoration id ctx books).store = (restoration id ctx books).quiet := by
  have hagain : (guard id ctx (restoration id ctx books).store).settle = (guard id ctx books).settle.quiet :=
    Guard.ofStatus_again fun _ _ => rfl
  rw [restoration, hagain]
  rfl

theorem passes_restoration {e : CompletionError} (h : (restoration id ctx books).failure = some e) :
    losesClaim e = false := by
  rcases Guard.failure_cases (g := guard id ctx books) h with hstored | ⟨i, after, rfl⟩
  · obtain rfl := Guard.found_eq_error hstored
    rfl
  · rfl

end Closing

namespace Advance

variable {id mission : Int}

theorem restoration_alike (h : ctx.UndoneAlike ctx') (books : Books) :
    restoration id mission ctx' books = restoration id mission ctx books := by
  rw [restoration, executionGuard, h.closing, participantGuard_alike h mission books.executions]
  rfl

theorem executionGuard_again (participants : Table Int Participant) :
    (executionGuard id ctx { books with
        executions := (executionGuard id ctx books).settle.store, participants }).settle =
      (executionGuard id ctx books).settle.quiet :=
  Guard.ofStatus_again fun _ _ => rfl

theorem participantGuard_again (hkeyed : books.Keyed) (executions : Table Int Execution) :
    (participantGuard mission ctx { books with
        executions, participants := (participantGuard mission ctx books).settle.store }).settle =
      (participantGuard mission ctx books).settle.quiet := by
  refine Guard.settle_again rfl rfl (fun hkept => by rw [hkept]; rfl) fun p before after h => ?_
  have hfound : books.participantOf mission ctx.request.user = some p := Guard.found_eq_ok.1 h.stored
  have hagain := Books.participantOf_putParticipant hkeyed hfound
    (q := { p with progress := before.1, status := before.2 }) rfl rfl rfl
  rw [h.settle]
  exact ⟨_, Guard.found_eq_ok.2 hagain, rfl⟩

theorem restoration_again (hkeyed : books.Keyed) :
    restoration id mission ctx (restoration id mission ctx books).store =
      (restoration id mission ctx books).quiet := by
  rw [restoration, restoration, executionGuard_again, participantGuard_again hkeyed]
  rfl

theorem passes_restoration {e : CompletionError} (h : (restoration id mission ctx books).failure = some e) :
    losesClaim e = false := by
  rw [restoration] at h
  generalize (executionGuard id ctx books).settle.failure = execution at h
  generalize (participantGuard mission ctx books).settle.failure = participant at h
  cases execution <;> cases participant <;> cases h <;> rfl

end Advance

/-! ### Compensation, served -/

namespace Completion

variable {S : Type} {server : Server S} {view : S → Books} {good : S → Prop} {step : CompletionStep}

/-- Compensation ends as a restoration tells: with its failure, which passes, the calls that wrote, and the books. -/
def Compensates (server : Server S) (view : S → Books) (step : CompletionStep) (ctx : Context) (s : S)
    (restoration : Restoration Books) (ctx' : Context) (s' : S) : Prop :=
  ∃ result, ((step.compensate.run ctx).serve server).run s = ((result, ctx'), s') ∧
    ((step.compensate.run ctx).serve (server.noting Note.writes)).run (s, []) =
      ((result, ctx'), (s', restoration.writes)) ∧
    result.cause = restoration.failure ∧ result.isSuccess = restoration.failure.isNone ∧ result.isRejected = false ∧
    view s' = restoration.store

/-- Compensation ends as told, and repeated at once it leaves the books as they are. Where the snapshots are exact, it
also writes nothing and ends as it did. -/
def CompensatesTwice (server : Server S) (view : S → Books) (step : CompletionStep) (ctx : Context) (s : S)
    (restoration : Restoration Books) (exact : Prop) : Prop :=
  ∃ ctx' s', Compensates server view step ctx s restoration ctx' s' ∧
    ∃ again ctx'' s'', Compensates server view step ctx' s' again ctx'' s'' ∧ again.store = restoration.store ∧
      (exact → again = restoration.quiet)

theorem compensates_of_meets {doing : String} {rejects : CompletionError → Bool} {revert : Procedure Success}
    (hstep : step.compensate = settle doing rejects revert)
    (hserver : server.FailsCleanly (fun _ => False) view good) {s : S} (hs : good s) {restoration : Restoration Books}
    (hrevert : revert.Meets Restoration.protocol (Restoration.Ends ctx [] restoration) ctx (view s, []))
    (hpasses : ∀ e, restoration.failure = some e → rejects e = false) :
    ∃ ctx' s', Compensates server view step ctx s restoration ctx' s' ∧ ctx.UndoneAlike ctx' ∧ good s' := by
  have hobeys : (step.compensate.run ctx).Obeys Restoration.protocol (fun r g => ctx.UndoneAlike r.2 ∧
      r.1.cause = restoration.failure ∧ r.1.isSuccess = restoration.failure.isNone ∧ r.1.isRejected = false ∧
      g = (restoration.store, restoration.writes)) (view s, []) := by
    rw [hstep]
    refine obeys_settle.2 (hrevert.mono fun r ctx' g h => ?_)
    obtain ⟨halike, hfailure, rfl⟩ := h
    cases r with
    | ok success => exact ⟨halike, hfailure, hfailure ▸ rfl, rfl, rfl⟩
    | error e =>
      have hpass : rejects e = false := hpasses e hfailure.symm
      dsimp only
      rw [hpass]
      exact ⟨halike, hfailure, hfailure ▸ rfl, rfl, rfl⟩
  obtain ⟨result, ctx', ⟨s', writes⟩, hrun, ⟨halike, hcause, hsuccess, hrejected, hend⟩, hgood⟩ :=
    hobeys.served ((hserver.governs Context).noting Note.writes) (w := (s, [])) hs
  obtain ⟨hstore, rfl⟩ : view s' = restoration.store ∧ writes = restoration.writes := Prod.mk.inj hend
  have hnoted := Program.serve_of_served hrun
  exact ⟨ctx', s', ⟨result, Program.serve_of_noting hnoted, hnoted, hcause, hsuccess, hrejected, hstore⟩, halike, hgood⟩

/-- Compensation goes by what is stored, and by the context only as far as a compensation leaves it alone. -/
theorem compensatesTwice_of_meets (restoration : Context → Books → Restoration Books) {doing : String}
    {rejects : CompletionError → Bool} {revert : Procedure Success}
    (hstep : step.compensate = settle doing rejects revert)
    (hserver : server.FailsCleanly (fun _ => False) view good) {s : S} (hs : good s) (hkeyed : (view s).Keyed)
    {exact : Prop}
    (hrevert : ∀ ctx' books, ctx.UndoneAlike ctx' → books.Keyed →
      revert.Meets Restoration.protocol (Restoration.Ends ctx' [] (restoration ctx' books)) ctx' (books, []))
    (hpasses : ∀ ctx' books e, (restoration ctx' books).failure = some e → rejects e = false)
    (halike : ∀ ctx' books, ctx.UndoneAlike ctx' → restoration ctx' books = restoration ctx books)
    (hstore : (restoration ctx (restoration ctx (view s)).store).store = (restoration ctx (view s)).store)
    (hexact : exact → restoration ctx (restoration ctx (view s)).store = (restoration ctx (view s)).quiet) :
    CompensatesTwice server view step ctx s (restoration ctx (view s)) exact := by
  obtain ⟨ctx', s', hfirst, halike', hs', hkeyed'⟩ := compensates_of_meets hstep hserver.keyed (s := s) ⟨hs, hkeyed⟩
    (hrevert ctx (view s) (.refl ctx) hkeyed) (hpasses _ _)
  obtain ⟨ctx'', s'', hsecond, -, -⟩ := compensates_of_meets hstep hserver hs' (hrevert ctx' (view s') halike' hkeyed')
    (hpasses _ _)
  have hview : view s' = (restoration ctx (view s)).store := by
    obtain ⟨result, -, -, -, -, -, hview⟩ := hfirst
    exact hview
  rw [halike ctx' _ halike', hview] at hsecond
  exact ⟨ctx', s', hfirst, _, ctx'', s'', hsecond, hstore, hexact⟩

/-- While no call fails, compensation puts back the records that are still as their step had left them, leaves alone
what is restored already or was not kept whole, and fails where something else is stored. Repeated, it changes nothing
more. -/
theorem compensates_guarded (hserver : server.FailsCleanly (fun _ => False) view good) {s : S} (hs : good s)
    (hkeyed : (view s).Keyed) (ctx : Context) :
    CompensatesTwice server view UserReward.step ctx s (UserReward.restoration ctx (view s)) ctx.reward.Exact ∧
      (∀ guild m, ctx.guild = some guild → ctx.mission = some m →
        CompensatesTwice server view GuildReward.step ctx s (GuildReward.restoration guild m.id ctx (view s))
          ctx.guildReward.Exact) ∧
      (∀ i, ctx.pinned = some i →
        CompensatesTwice server view Closing.step ctx s (Closing.restoration i.id ctx (view s)) True) ∧
      ∀ m x, ctx.mission = some m → ctx.execution = some x →
        CompensatesTwice server view Advance.step ctx s (Advance.restoration x.id m.id ctx (view s)) True := by
  refine ⟨?_, fun guild m hguild hm => ?_, fun i hi => ?_, fun m x hm hx => ?_⟩
  · exact compensatesTwice_of_meets UserReward.restoration rfl hserver hs hkeyed
      (fun ctx' books _ _ => UserReward.meets_revert_guarded) (fun _ _ _ _ => rfl)
      (fun ctx' books h => UserReward.restoration_alike h books) UserReward.store_restoration_again
      UserReward.restoration_again
  · exact compensatesTwice_of_meets (GuildReward.restoration guild m.id) rfl hserver hs hkeyed
      (fun ctx' books h _ => GuildReward.meets_revert_guarded (h.guild.trans hguild) (h.mission.trans hm))
      (fun _ _ _ _ => rfl) (fun ctx' books h => GuildReward.restoration_alike h books)
      GuildReward.store_restoration_again GuildReward.restoration_again
  · refine compensatesTwice_of_meets (Closing.restoration i.id) rfl hserver hs hkeyed
      (fun ctx' books h hkeyed => ?_) (fun _ _ _ => Closing.passes_restoration)
      (fun ctx' books h => Closing.restoration_alike h books) ?_ fun _ => Closing.restoration_again
    · obtain ⟨i', hi', hid⟩ := h.exists_pinned hi
      rw [← hid]
      exact Closing.meets_revert_guarded hkeyed hi'
    · rw [Closing.restoration_again]
      rfl
  · refine compensatesTwice_of_meets (Advance.restoration x.id m.id) rfl hserver hs hkeyed
      (fun ctx' books h hkeyed => ?_) (fun _ _ _ => Advance.passes_restoration)
      (fun ctx' books h => Advance.restoration_alike h books) ?_ fun _ => Advance.restoration_again hkeyed
    · obtain ⟨x', hx', hid⟩ := h.exists_execution hx
      rw [← hid]
      exact Advance.meets_revert_guarded hkeyed (h.mission.trans hm) hx'
    · rw [Advance.restoration_again hkeyed]
      rfl

end Completion

namespace Fixture

/-- A context and a world after steps were executed. -/
def executed (steps : List CompletionStep) (ctx : Context) (w : World) : Context × World :=
  steps.foldl (fun state step =>
    let done := ((step.execute.run state.1).serve World.server).run state.2
    (done.1.2, done.2)) (ctx, w)

theorem keyed_executed {steps : List CompletionStep} {ctx : Context} {w : World} (h : w.books.Keyed) :
    (executed steps ctx w).2.books.Keyed := by
  induction steps generalizing ctx w with
  | nil => exact h
  | cons step rest ih =>
    have hhands : w.faults.Hands fun _ => True := ⟨fun _ _ => trivial, fun _ _ => trivial, fun _ _ => trivial⟩
    exact ih (((World.server_failsCleanly _).comes (step.execute.run ctx) hhands).keyed h)

/-- The guild's mission, completed up to the guild's reward. -/
def rewarded : Context × World :=
  executed [UserReward.step, Advance.step, GuildReward.step]
    (.withExecution loaded { mission with guild := some 7, guildExperience := 20 } participant execution)
    (guild.foldl World.disturb {})

/-- The same after somebody else has changed the user's total and failed the execution. -/
def meddled : World :=
  [Disturbance.setUserTotal "user-1" 99, .setExecutionStatus 500 .failed].foldl World.disturb rewarded.2

def closed : Context × World :=
  executed [Closing.step] (.withInstance loaded mission pinned) (plain.foldl World.disturb {})

end Fixture

open Fixture in
theorem Completion.compensates_guarded_rewarded :
    (CompensatesTwice World.server World.books UserReward.step rewarded.1 rewarded.2
        (UserReward.restoration rewarded.1 rewarded.2.books) rewarded.1.reward.Exact ∧
      (UserReward.restoration rewarded.1 rewarded.2.books).store.userTotal "user-1" = 0) ∧
    (CompensatesTwice World.server World.books UserReward.step rewarded.1 meddled
        (UserReward.restoration rewarded.1 meddled.books) rewarded.1.reward.Exact ∧
      (UserReward.restoration rewarded.1 meddled.books).failure.isSome = true ∧
      (UserReward.restoration rewarded.1 meddled.books).writes = []) ∧
    (CompensatesTwice World.server World.books GuildReward.step rewarded.1 rewarded.2
        (GuildReward.restoration 7 100 rewarded.1 rewarded.2.books) rewarded.1.guildReward.Exact ∧
      (GuildReward.restoration 7 100 rewarded.1 rewarded.2.books).store.guildTotal 7 = 150) ∧
    (CompensatesTwice World.server World.books Closing.step closed.1 closed.2
        (Closing.restoration 900 closed.1 closed.2.books) True ∧
      (Closing.restoration 900 closed.1 closed.2.books).writes = [.saveInstance pinned]) ∧
    (CompensatesTwice World.server World.books Advance.step rewarded.1 meddled
        (Advance.restoration 500 100 rewarded.1 meddled.books) True ∧
      (Advance.restoration 500 100 rewarded.1 meddled.books).failure.isSome = true ∧
      (Advance.restoration 500 100 rewarded.1 meddled.books).writes = [.saveParticipant participant]) := by
  have hrewarded : rewarded.2.books.Keyed := keyed_executed (World.keyed_foldl_disturb .empty _)
  have hmeddled : meddled.books.Keyed := World.keyed_foldl_disturb hrewarded _
  have hclosed : closed.2.books.Keyed := keyed_executed (World.keyed_foldl_disturb .empty _)
  have hguild : rewarded.1.guild = some 7 := by decide +kernel
  have hmission : rewarded.1.mission = some { Fixture.mission with guild := some 7, guildExperience := 20 } := by
    decide +kernel
  have hexecution : rewarded.1.execution = some { execution with status := .completed } := by decide +kernel
  have hpinned : closed.1.pinned = some { pinned with status := .completed } := by decide +kernel
  obtain ⟨huser, hguildReward, -, -⟩ :=
    compensates_guarded World.server_unfailing (s := rewarded.2) rfl hrewarded rewarded.1
  obtain ⟨huser', -, -, hadvance⟩ := compensates_guarded World.server_unfailing (s := meddled) rfl hmeddled rewarded.1
  obtain ⟨-, -, hclosing, -⟩ := compensates_guarded World.server_unfailing (s := closed.2) rfl hclosed closed.1
  exact ⟨⟨huser, by decide +kernel⟩, ⟨huser', by decide +kernel, by decide +kernel⟩,
    ⟨hguildReward 7 _ hguild hmission, by decide +kernel⟩, ⟨hclosing _ hpinned, by decide +kernel⟩,
    hadvance _ _ hmission hexecution, by decide +kernel, by decide +kernel⟩

end Missions
