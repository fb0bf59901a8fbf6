import Missions.Proofs.Completion.Discipline.Steps
import Missions.Proofs.Completion.Effect
import Missions.Proofs.Completion.Outcome

namespace Missions

open Discipline Minutes

variable {may : CompletionError → Prop} {r : Request}

namespace Discipline

theorem upholds_loading : Loading.step.Upholds (protocol may) (RunInvariant r) Loading.position := by
  refine .inr ⟨fun _ _ h _ => obeys_execute (Loading.meets_load_invariant h), fun _ _ h _ => ?_⟩
  rw [Loading.compensate_eq_settle]
  exact obeys_compensate (Procedure.preserves_pure _) h

theorem upholds_userReward : UserReward.step.Upholds (protocol may) (RunInvariant r) UserReward.position := by
  refine .inr ⟨fun _ _ h hpending => obeys_execute (UserReward.meets_grant_invariant h hpending), fun _ _ h _ => ?_⟩
  exact obeys_compensate
    (UserReward.confined_revert.preserves (tolerates_aside.fewer (by decide))) h

theorem upholds_advance : Advance.step.Upholds (protocol may) (RunInvariant r) Advance.position := by
  cases hr : r.pinned with
  | true =>
    refine .inl fun h g hinvariant => ?_
    have hpinned : h.state.request.pinned = true := hinvariant.request ▸ hr
    exact congrArg not hpinned
  | false =>
    refine .inr ⟨fun _ _ h hpending => obeys_execute (Advance.meets_update_invariant hr h hpending),
      fun _ _ h hok => ?_⟩
    have hsettled : Procedure.Tolerates (terms may _) _ _ _ :=
      tolerates_settled fun _ _ => .advanced hr hok.not_pending
    exact obeys_compensate
      (Advance.confined_revert.preserves (hsettled.fewer (by decide))) h

theorem upholds_closing : Closing.step.Upholds (protocol may) (RunInvariant r) Closing.position := by
  cases hr : r.pinned with
  | false =>
    refine .inl fun h g hinvariant => ?_
    have hregular : h.state.request.pinned = false := hinvariant.request ▸ hr
    exact hregular
  | true =>
    refine .inr ⟨fun _ _ h hpending => obeys_execute (Closing.meets_close_invariant hr h hpending),
      fun _ _ h hok => ?_⟩
    have hsettled : Procedure.Tolerates (terms may _) _ _ _ :=
      tolerates_settled fun _ _ => .closed hr hok.not_pending
    exact obeys_compensate
      (Closing.confined_revert.preserves (hsettled.fewer (by decide))) h

theorem upholds_guildReward : GuildReward.step.Upholds (protocol may) (RunInvariant r) GuildReward.position := by
  refine .inr ⟨fun _ _ h hpending => obeys_execute (GuildReward.meets_grant_invariant h hpending), fun _ _ h _ => ?_⟩
  exact obeys_compensate
    (GuildReward.confined_revert.preserves (tolerates_aside.fewer (by decide))) h

theorem upholds_sharing : Sharing.step.Upholds (protocol may) (RunInvariant r) Sharing.position := by
  refine .inr ⟨fun _ _ h _ => ?_, fun _ _ h _ => ?_⟩
  · have hother : ∀ position ∈ RunInvariant.keeping, StepCall.execute Sharing.position ≠ .execute position := by decide
    exact obeys_preserved hother
      (Sharing.confined_publish.preserves (tolerates_aside.fewer (by decide))) h
  · exact obeys_compensate
      (Sharing.confined_unpublish.preserves (tolerates_aside.fewer (by decide))) h

theorem invariant_start {books : Books} (hkeyed : books.Keyed) (r : Request) : RunInvariant r ⟨.start r, []⟩ books := by
  have hnone {t : SnapshotType} (key : SnapshotKey t) : (Context.start r).kept key = none := rfl
  refine ⟨⟨?_, ?_, ?_, fun hboth => not_attempted_nil hboth.1⟩, rfl, fun _ hmade => absurd hmade not_attempted_nil,
    hkeyed, fun _ _ _ _ hx => ?_, fun _ _ _ hi => ?_⟩
  · rw [Context.reward, hnone, hnone, hnone]
    exact .unmade not_mutated_nil none
  · rw [Context.guildReward, hnone, hnone, hnone]
    exact .unmade not_mutated_nil none
  · rw [Context.closing, hnone, hnone, hnone, hnone, hnone, hnone]
    exact .unclosed not_mutated_nil not_mutated_nil none none none
  · cases hx
  · cases hi

end Discipline

namespace Operation

variable (o : Operation)

theorem upholds : ∀ row ∈ o.saga.steps.zipIdx, row.1.Upholds (protocol may) (RunInvariant r) row.2 := by
  rw [o.steps_saga]
  simp only [List.zipIdx_cons, List.zipIdx_nil, List.forall_mem_cons]
  exact ⟨upholds_loading, upholds_userReward, upholds_advance, upholds_closing, upholds_guildReward, upholds_sharing,
    nofun⟩

/-- Whoever fails only so that nothing changes, and however often: wherever a completion calls, its snapshots say what
the minutes of the run tell, and what is granted, added to or claimed was kept as the books show it. At the end of the
run the snapshots still say what the minutes tell. -/
theorem run_disciplined {S : Type} {server : Server S} {books : S → Books} {good : S → Prop}
    (hserver : server.FailsCleanly may books good) (request : Request) {w : S} (hw : good w)
    (hkeyed : (books w).Keyed) :
    let run := o.saga.minuted.run.run.run ⟨.start (o.effective request), []⟩
    o.saga.steps = [Loading.step, UserReward.step, Advance.step, Closing.step, GuildReward.step, Sharing.step] ∧
    (o.complete request).moments server w =
      (run.moments server w).map (fun m => ⟨m.here.state, m.before, m.call⟩) ∧
    (∀ m ∈ run.moments server w, m.here.Disciplined ∧ m.here.state.KeepsBefore (books m.before) m.call) ∧
    ∀ result h, ((run.serve server).run w).1 = (.ok result, h) →
      (((o.saga.run.run.run (.start (o.effective request))).serve server).run w).1 = (.ok result, h.state) ∧
        h.Disciplined := by
  intro run
  have hobeys : run.Obeys (protocol may) _ (books w) :=
    Saga.obeys_minuted o.upholds (invariant_start hkeyed (o.effective request))
  have hgoverns : (protocol may).Governs server books good := fun _ c s hs => hserver c s hs
  have hseen : run.seen Minutes.state = o.saga.run.run.run (.start (o.effective request)) := o.saga.seen_minuted _
  refine ⟨o.steps_saga, ?_, hobeys.moments hgoverns hw, fun result h hrun => ?_⟩
  · rw [o.complete_eq_concluded, Program.moments_bind_pure, ← hseen, Program.moments_seen]
  · have hend := hobeys.serve hgoverns hw
    rw [hrun] at hend
    rw [← hseen, Program.run_serve_seen, hrun]
    exact ⟨rfl, (hend result rfl).toDisciplined⟩

end Operation

/-- The guild cannot be rewarded at any of the attempts that are made. -/
def Fixture.besieged : World := (Fixture.guild ++ [Disturbance.failGuildAdditions 2]).foldl World.disturb {}

open Fixture in
/-- A count fails once, and an addition to the guild's experience; both steps are tried again. The completion of an
instance is rolled back for a guild that cannot be rewarded. -/
theorem Operation.run_disciplined_hampered :
    let run := patient.saga.minuted.run.run.run ⟨.start request, []⟩
    let undone := patient.saga.minuted.run.run.run ⟨.start pinnedRequest, []⟩
    (run.moments World.server hampered).map (·.call.method) =
      [.findMission, .findParticipant, .findExecutionInProgress, .currentExperience, .grantExperience,
        .completeExecution, .countExecutions, .saveExecution, .completeExecution, .countExecutions, .saveParticipant,
        .guildExperience, .addGuildExperience, .guildExperience, .addGuildExperience, .createFeed, .setShared] ∧
    (∀ m ∈ run.moments World.server hampered,
      m.here.Disciplined ∧ m.here.state.KeepsBefore m.before.books m.call) ∧
    (∃ result h, ((run.serve World.server).run hampered).1 = (.ok result, h) ∧ h.Disciplined ∧
      h.state.kept Snapshot.guildTotalAfter = some 170 ∧
      h.entries.map (fun e => (e.call, e.result.isSuccess)) =
        [(.execute 0, true), (.execute 1, true), (.execute 2, false), (.execute 2, true), (.execute 4, false),
          (.execute 4, true), (.execute 5, true)]) ∧
    (undone.moments World.server besieged).map (·.call.method) =
      [.findInstance, .findMission, .currentExperience, .grantExperience, .completeInstance, .guildExperience,
        .addGuildExperience, .guildExperience, .addGuildExperience, .findInstance, .saveInstance, .currentExperience,
        .subtractExperience] ∧
    ∀ m ∈ undone.moments World.server besieged,
      m.here.Disciplined ∧ m.here.state.KeepsBefore m.before.books m.call := by
  intro run undone
  obtain ⟨-, -, hmoments, hend⟩ := patient.run_disciplined (World.server_failsCleanly _) request
    hampered.faults.hands_any (World.keyed_foldl_disturb .empty _)
  obtain ⟨-, -, hmoments', -⟩ := patient.run_disciplined (World.server_failsCleanly _) pinnedRequest
    besieged.faults.hands_any (World.keyed_foldl_disturb .empty _)
  have hended : ((run.serve World.server).run hampered).1.1.isOk = true ∧
      ((run.serve World.server).run hampered).1.2.state.kept Snapshot.guildTotalAfter = some 170 ∧
      ((run.serve World.server).run hampered).1.2.entries.map (fun e => (e.call, e.result.isSuccess)) =
        [(.execute 0, true), (.execute 1, true), (.execute 2, false), (.execute 2, true), (.execute 4, false),
          (.execute 4, true), (.execute 5, true)] := by decide +kernel
  refine ⟨by decide +kernel, hmoments, ?_, by decide +kernel, hmoments'⟩
  generalize hrun : ((run.serve World.server).run hampered).1 = ended at hended ⊢
  obtain ⟨hok, hkept, htold⟩ := hended
  obtain ⟨_ | result, h⟩ := ended
  · cases hok
  · exact ⟨result, h, rfl, (hend result h hrun).2, hkept, htold⟩

end Missions
