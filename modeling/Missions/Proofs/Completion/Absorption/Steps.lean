import Missions.Proofs.Completion.Absorption.Running
import Missions.Proofs.Completion.Footprint
import Missions.Proofs.Completion.Knowledge
import Missions.Proofs.Completion.Undisturbed.Attempt
import Missions.Proofs.Completion.Undisturbed.Loading
import Missions.Proofs.Completion.Undisturbed.Rewards
import Missions.Proofs.Saga.Counting

/-! How each step takes failures of the call that it tries again. What an attempt has kept before the call fails the
next attempt keeps again, and an execution that was claimed is given back. -/

namespace Missions

namespace Knowledge

/-- Nothing is known of any record, and any error may come. -/
def none : Knowledge where
  mission _ := True
  participant _ := True
  execution _ := True
  pinned _ := True
  error _ := True
  participant_with _ _ _ h := h
  execution_with _ _ h := h
  pinned_with _ _ h := h
  error_other _ _ := trivial

variable {r : Request} {m : Mission} {ctx ctx' : Context}

theorem Loaded.of_facets {k : Knowledge} (h : k.Loaded r m ctx) (hbrief : ctx'.brief = ctx.brief)
    (hrecords : ctx'.records = ctx.records) : k.Loaded r m ctx' := by
  have hparticipant : ctx'.participant = ctx.participant := congrArg Context.Records.participant hrecords
  have hexecution : ctx'.execution = ctx.execution := congrArg Context.Records.execution hrecords
  have hpinned : ctx'.pinned = ctx.pinned := congrArg Context.Records.pinned hrecords
  refine ⟨hbrief.trans h.brief, ?_, ?_, ?_⟩
  · rw [hparticipant]
    exact h.participant
  · rw [hexecution]
    exact h.execution
  · rw [hpinned]
    exact h.pinned

end Knowledge

/-- The context of a request is loaded, and an execution that is to be closed stands in the books as it was loaded. -/
structure Ready (r : Request) (ctx : Context) (books : Books) : Prop where
  loaded : ∃ m, Knowledge.none.Loaded r m ctx
  stored : r.pinned = false → ∀ x, ctx.execution = some x →
    books.executions.get? x.id = some x ∧ x.status = .inProgress

theorem Ready.of_facets {r : Request} {ctx ctx' : Context} {books books' : Books} (h : Ready r ctx books)
    (hbrief : ctx'.brief = ctx.brief) (hrecords : ctx'.records = ctx.records)
    (hexecutions : books'.executions = books.executions) : Ready r ctx' books' where
  loaded := by
    obtain ⟨m, hm⟩ := h.loaded
    exact ⟨m, hm.of_facets hbrief hrecords⟩
  stored := by
    have hexecution : ctx'.execution = ctx.execution := congrArg Context.Records.execution hrecords
    rw [hexecution, hexecutions]
    exact h.stored

open Procedure

variable {most faults : Faults} {ctx : Context} {books : Books} {r : Request}

theorem tolerates_unawaited {methods : Method → Bool} {changes : Context → Context → Prop} {awaited : Method}
    (hmethods : ∀ m ∈ Method.all, methods m = true → m = awaited ∨ m.isRetried = false)
    (hnone : faults.awaiting awaited = 0) :
    Tolerates (.calling Context fun c => faults.awaiting c.method = 0) (fun _ _ => True) methods changes where
  call {ctx g c} _ hc := by
    refine ⟨?_, fun _ _ _ => trivial⟩
    obtain hawaited | hnever := hmethods c.method (Method.mem_all _) hc
    · exact (congrArg faults.awaiting hawaited).trans hnone
    · exact faults.awaiting_of_not_isRetried hnever
  change _ _ := trivial

theorem tolerates_not_retried {methods : Method → Bool} {changes : Context → Context → Prop}
    (hmethods : ∀ m ∈ Method.all, methods m = true → m.isRetried = false) :
    Tolerates (.calling Context fun c => faults.awaiting c.method = 0) (fun _ _ => True) methods changes where
  call _ hc := ⟨faults.awaiting_of_not_isRetried (hmethods _ (Method.mem_all _) hc), fun _ _ _ => trivial⟩
  change _ _ := trivial

namespace UserReward

theorem begun_begun (ctx : Context) (before : Experience) : begun (begun ctx before) before = begun ctx before := by
  have htotal : (begun ctx before).kept Snapshot.userTotalBefore = some before.total := by
    simp (disch := decide) only [begun, Context.kept, Context.keep, Context.withLevelBefore,
      Snapshots.get?_insert_of_ne, Snapshots.get?_insert_self]
  have hlevel : (begun ctx before).kept Snapshot.userLevelBefore = some before.level := by
    simp (disch := decide) only [begun, Context.kept, Context.keep, Context.withLevelBefore,
      Snapshots.get?_insert_self]
  have hbefore : (begun ctx before).levelBefore = some before.level := rfl
  generalize begun ctx before = here at htotal hlevel hbefore
  rw [begun, here.keep_eq_self htotal, here.keep_eq_self hlevel, Context.withLevelBefore, ← hbefore]

def granted (amount : Int) (before after : Experience) : Procedure Success := do
  keep Snapshot.userTotalAfter after.total
  keep Snapshot.userGranted amount
  modify (·.withLevelAfter after.level)
  pure ⟨"granted " ++ toString amount ++ " experience", some (.granted amount before.level after.level)⟩

theorem runIn_grant_nothing (h : ctx.userEarned ≤ 0) (w : World) :
    grant.runIn ctx w = ((.ok ⟨"mission grants no experience", none⟩, ctx), w) := by
  rw [grant, runIn_get_bind]
  dsimp only
  rw [if_pos h, runIn_pure]

theorem runIn_grant (h : ¬ ctx.userEarned ≤ 0) (w : World) : grant.runIn ctx w =
    (ask (.grantExperience (grantOf ctx ctx.userEarned)) >>=
      granted ctx.userEarned (w.books.experience ctx.request.user)).runIn
        (begun ctx (w.books.experience ctx.request.user)) w := by
  have hasked : w.faults.strike (.currentExperience ctx.request.user) = (none, w.faults) := rfl
  rw [grant, runIn_get_bind]
  dsimp only
  rw [if_neg h, runIn_ask_bind hasked, runIn_keep_bind, runIn_keep_bind, runIn_modify_bind]
  rfl

theorem retriable_grant (hfaults : most.Bounds faults) {K : Context → Books → Prop}
    (hK : K (begun ctx (books.experience ctx.request.user)) books) :
    Retriable most .grantExperience neverRejects K grant ctx books faults := by
  by_cases hnone : faults.awaiting .grantExperience = 0
  · exact .of_unawaited hfaults (confined_grant.preserves (tolerates_unawaited (by decide) hnone) ctx () trivial)
  by_cases hamount : ctx.userEarned ≤ 0
  · exact .alike (runIn_grant_nothing hamount _) (runIn_grant_nothing hamount _)
  · obtain ⟨service, message, faults', hstrike, hfaults', hfewer⟩ :=
      hfaults.strike_some (c := .grantExperience (grantOf ctx ctx.userEarned)) hnone
    refine .fails (e := .collaborator service message) ?_ rfl hfaults' hfewer hK ?_
    · rw [runIn_grant hamount, runIn_ask_bind_struck hstrike]
    · have hagain : ¬ (begun ctx (books.experience ctx.request.user)).userEarned ≤ 0 := hamount
      rw [runIn_grant hagain, runIn_grant hamount]
      exact congrArg (fun ctx' => Procedure.runIn _ ctx' _) (begun_begun ctx _)

theorem exists_execute_struck (hearned : 0 < ctx.userEarned) (n : ℕ) : ∃ result ctx',
    (step.served World.server).execute.run (ctx, ⟨books, { grants := n + 1 }⟩) =
        pure (result, (ctx', ⟨books, { grants := n }⟩)) ∧
      result.isRetryable = true ∧ 0 < ctx'.userEarned := by
  have hstrike : ({ grants := n + 1 } : Faults).strike (.grantExperience (grantOf ctx ctx.userEarned)) =
      (some (.error (.collaborator "experience" "grant rejected")), { grants := n }) := rfl
  have hrun := runIn_grant (Int.not_le.2 hearned) ⟨books, { grants := n + 1 }⟩
  rw [runIn_ask_bind_struck hstrike] at hrun
  have hexecute : step.execute = settle "failed to grant user experience" neverRejects grant := rfl
  exact ⟨_, _, run_served_execute hexecute hrun, rfl, hearned⟩

theorem isRetryable_reports_struck (hearned : 0 < ctx.userEarned) {n k : ℕ} (hk : k < n) :
    ((step.served World.server).reports (ctx, ⟨books, { grants := n }⟩) k).isRetryable = true := by
  -- on the calls before, each of which takes one failure away
  induction k generalizing ctx n with
  | zero =>
    obtain ⟨n, rfl⟩ := Nat.exists_eq_succ_of_ne_zero (Nat.ne_of_gt hk)
    obtain ⟨result, ctx', hrun, hretry, -⟩ := exists_execute_struck hearned n
    rw [Step.reports_zero, hrun]
    exact hretry
  | succ k ih =>
    obtain ⟨n, rfl⟩ := Nat.exists_eq_succ_of_ne_zero (Nat.ne_of_gt (Nat.zero_lt_of_lt hk))
    obtain ⟨result, ctx', hrun, -, hearned'⟩ := exists_execute_struck hearned n
    have hnext := ih hearned' (Nat.lt_of_succ_lt_succ hk)
    rw [Step.reports, Step.stateAfter_succ, hrun]
    exact hnext

theorem run_attempt_struck (hearned : 0 < ctx.userEarned) {retries : ℕ} (hretries : attemptCounterMax ≤ retries) :
    (Run.attempt (step.served World.server).execute retries 0).run.run
        (ctx, ⟨books, { grants := attemptCounterMax }⟩) =
      pure (.error .attemptCounterFull, (step.served World.server).stateAfter
        (ctx, ⟨books, { grants := attemptCounterMax }⟩) attemptCounterMax) := by
  have hmade : 0 + attemptCounterMax = attemptCounterMax := Nat.zero_add attemptCounterMax
  exact Run.run_attempt_overrun hmade hretries fun k hk => isRetryable_reports_struck hearned hk

theorem grant_calm (ctx : Context) (books : Books) : (grant.runIn ctx ⟨books, {}⟩).1.1.isOk = true := by
  by_cases hamount : ctx.userEarned ≤ 0
  · rw [runIn_grant_nothing hamount]
    rfl
  · rw [runIn_grant hamount, runIn_ask_bind (Faults.strike_empty _)]
    rfl

end UserReward

namespace Advance

variable {m : Mission} {p : Participant} {x : Execution}

def updating (m : Mission) (p : Participant) (x : Execution) : Procedure Success := do
  let claimed : Bool ← ask (.completeExecution x.id)
  check claimed (.alreadyCompleted "execution" x.id)
  match ← outcome (recordProgress p m.totalExecutions) with
  | .error e => throw (← release x e)
  | .ok updated =>
    keep Snapshot.targetAfter .completed
    keep Snapshot.progressAfter updated.progress
    keep Snapshot.participantAfter updated.status
    modify fun ctx => (ctx.withExecutionStatus .completed).withParticipant updated
    pure ⟨"participant progress updated",
      some (.advanced x.id updated.progress (updated.status == .completed))⟩

theorem runIn_update (hm : ctx.mission = some m) (hp : ctx.participant = some p) (hx : ctx.execution = some x)
    (w : World) : update.runIn ctx w = (updating m p x).runIn (begun ctx p x) w := by
  rw [update, runIn_get_bind, hm, hp, hx]
  rfl

theorem completeExecution_stored (hx : books.executions.get? x.id = some x) (hstatus : x.status = .inProgress) :
    books.completeExecution x.id = (true, books.putExecution { x with status := .completed }) := by
  simp only [Books.completeExecution, hx, if_pos hstatus]

theorem runIn_updating_struck (ctx : Context) (m : Mission) (p : Participant)
    (hx : books.executions.get? x.id = some x) (hstatus : x.status = .inProgress) (hfaults : most.Bounds faults)
    (hawaited : faults.awaiting .countExecutions ≠ 0) :
    ∃ service message, ∃ faults' : Faults, (updating m p x).runIn ctx ⟨books, faults⟩ =
      ((.error (.collaborator service message), ctx), ⟨books, faults'⟩) ∧ most.Bounds faults' ∧
        faults'.awaiting .countExecutions < faults.awaiting .countExecutions := by
  obtain ⟨service, message, faults', hstrike, hfaults', hfewer⟩ :=
    hfaults.strike_some (c := .countExecutions p.id .completed) hawaited
  have hback : (books.putExecution { x with status := .completed }).putExecution { x with status := .inProgress } =
      books := by
    rw [← hstatus]
    exact Books.putExecution_putExecution hx rfl
  have hreleased : (release x (.collaborator service message)).runIn ctx
      ⟨books.putExecution { x with status := .completed }, faults'⟩ =
      ((.ok (.collaborator service message), ctx), ⟨books, faults'⟩) := by
    rw [release, runIn_query_bind (hfaults'.strike_none rfl), Books.perform, hback]
    rfl
  refine ⟨service, message, faults', ?_, hfaults', hfewer⟩
  rw [updating, runIn_ask_bind (hfaults.strike_none rfl), Books.perform, completeExecution_stored hx hstatus,
    runIn_check_bind, if_pos rfl, runIn_bind, runIn_outcome, recordProgress, runIn_ask_bind_struck hstrike]
  dsimp only
  rw [runIn_bind, hreleased]
  rfl

theorem retriable_update (hm : ctx.mission = some m) (hp : ctx.participant = some p) (hx : ctx.execution = some x)
    (hstored : books.executions.get? x.id = some x) (hstatus : x.status = .inProgress) (hfaults : most.Bounds faults)
    {K : Context → Books → Prop} (hK : K (begun ctx p x) books) :
    Retriable most .countExecutions losesClaim K update ctx books faults := by
  by_cases hnone : faults.awaiting .countExecutions = 0
  · exact .of_unawaited hfaults (confined_update.preserves (tolerates_unawaited (by decide) hnone) ctx () trivial)
  · obtain ⟨service, message, faults', hrun, hfaults', hfewer⟩ :=
      runIn_updating_struck (begun ctx p x) m p hstored hstatus hfaults hnone
    obtain ⟨hbrief, -, hrecords⟩ := facets_begun ctx p x
    refine .fails (e := .collaborator service message) ?_ rfl hfaults' hfewer hK ?_
    · rw [runIn_update hm hp hx, hrun]
    · have hm' : (begun ctx p x).mission = some m := (congrArg Context.Brief.mission hbrief).trans hm
      have hp' : (begun ctx p x).participant = some p := (congrArg Context.Records.participant hrecords).trans hp
      have hx' : (begun ctx p x).execution = some x := (congrArg Context.Records.execution hrecords).trans hx
      rw [runIn_update hm' hp' hx', runIn_update hm hp hx, begun_begun]

theorem update_calm (hm : ctx.mission = some m) (hp : ctx.participant = some p) (hx : ctx.execution = some x)
    (hstored : books.executions.get? x.id = some x) (hstatus : x.status = .inProgress) :
    (update.runIn ctx ⟨books, {}⟩).1.1.isOk = true := by
  rw [runIn_update hm hp hx, updating, runIn_ask_bind (Faults.strike_empty _), Books.perform,
    completeExecution_stored hstored hstatus, runIn_check_bind, if_pos rfl, runIn_bind, runIn_outcome]
  rfl

end Advance

namespace Closing

theorem close_calm {i : Instance} (hi : ctx.pinned = some i) {e : CompletionError} {ctx' : Context} {w' : World}
    (h : close.runIn ctx ⟨books, {}⟩ = ((.error e, ctx'), w')) : losesClaim e = true := by
  rw [close, runIn_get_bind, hi, runIn_require_bind, runIn_keep_bind, runIn_ask_bind (Faults.strike_empty _),
    runIn_check_bind] at h
  split at h
  · cases h
  · cases h
    rfl

end Closing

namespace GuildReward

theorem begun_begun (ctx : Context) (before : GuildExperience) :
    begun (begun ctx before) before = begun ctx before := by
  have htotal : (begun ctx before).kept Snapshot.guildTotalBefore = some before.total := by
    simp (disch := decide) only [begun, Context.kept, Context.keep, Snapshots.get?_insert_of_ne,
      Snapshots.get?_insert_self]
  have hlevel : (begun ctx before).kept Snapshot.guildLevelBefore = some before.level := by
    simp (disch := decide) only [begun, Context.kept, Context.keep, Snapshots.get?_insert_self]
  generalize begun ctx before = here at htotal hlevel
  rw [begun, here.keep_eq_self htotal, here.keep_eq_self hlevel]

def granted (guild amount : Int) (after : GuildExperience) : Procedure Success := do
  keep Snapshot.guildTotalAfter after.total
  keep Snapshot.guildGranted amount
  pure ⟨"granted " ++ toString amount ++ " guild experience", some (.guildGranted guild amount after.level)⟩

variable {guild : Int} {m : Mission}

theorem runIn_grant_nothing (hguild : ctx.guild = some guild) (h : ctx.guildEarned ≤ 0) (w : World) :
    grant.runIn ctx w = ((.ok ⟨"mission grants no guild experience", none⟩, ctx), w) := by
  rw [grant, runIn_get_bind, hguild, runIn_require_bind]
  dsimp only
  rw [if_pos h, runIn_pure]

theorem runIn_grant (hguild : ctx.guild = some guild) (hm : ctx.mission = some m) (h : ¬ ctx.guildEarned ≤ 0)
    (w : World) : grant.runIn ctx w =
      (ask (.addGuildExperience guild ctx.guildEarned ⟨ctx.request.user, m.id⟩) >>=
        granted guild ctx.guildEarned).runIn (begun ctx (w.books.guildExperience guild)) w := by
  have hid : ctx.missionId = some m.id := by rw [Context.missionId, hm, Option.map_some]
  have hasked : w.faults.strike (.guildExperience guild) = (none, w.faults) := rfl
  rw [grant, runIn_get_bind, hguild, runIn_require_bind]
  dsimp only
  rw [if_neg h, credit, bind_assoc, runIn_get_bind, hid, bind_assoc, runIn_require_bind, pure_bind,
    runIn_ask_bind hasked, runIn_keep_bind, runIn_keep_bind]
  rfl

theorem retriable_grant (hguild : ctx.guild = some guild) (hm : ctx.mission = some m) (hfaults : most.Bounds faults)
    {K : Context → Books → Prop} (hK : K (begun ctx (books.guildExperience guild)) books) :
    Retriable most .addGuildExperience neverRejects K grant ctx books faults := by
  by_cases hnone : faults.awaiting .addGuildExperience = 0
  · exact .of_unawaited hfaults (confined_grant.preserves (tolerates_unawaited (by decide) hnone) ctx () trivial)
  by_cases hamount : ctx.guildEarned ≤ 0
  · exact .alike (runIn_grant_nothing hguild hamount _) (runIn_grant_nothing hguild hamount _)
  · obtain ⟨service, message, faults', hstrike, hfaults', hfewer⟩ :=
      hfaults.strike_some (c := .addGuildExperience guild ctx.guildEarned ⟨ctx.request.user, m.id⟩) hnone
    refine .fails (e := .collaborator service message) ?_ rfl hfaults' hfewer hK ?_
    · rw [runIn_grant hguild hm hamount, runIn_ask_bind_struck hstrike]
    · have hguild' : (begun ctx (books.guildExperience guild)).guild = some guild := hguild
      have hm' : (begun ctx (books.guildExperience guild)).mission = some m := hm
      have hamount' : ¬ (begun ctx (books.guildExperience guild)).guildEarned ≤ 0 := hamount
      rw [runIn_grant hguild' hm' hamount', runIn_grant hguild hm hamount]
      exact congrArg (fun ctx' => Procedure.runIn _ ctx' _) (begun_begun ctx _)

theorem grant_calm (hguild : ctx.guild = some guild) (hm : ctx.mission = some m) (books : Books) :
    (grant.runIn ctx ⟨books, {}⟩).1.1.isOk = true := by
  by_cases hamount : ctx.guildEarned ≤ 0
  · rw [runIn_grant_nothing hguild hamount]
    rfl
  · rw [runIn_grant hguild hm hamount, runIn_ask_bind (Faults.strike_empty _)]
    rfl

end GuildReward

namespace Sharing

variable {m : Mission} {target : Target}

def entry (ctx : Context) (m : Mission) : FeedDraft where
  user := ctx.request.user
  mission := m.id
  title := ctx.title
  description := ctx.description
  categoryName := ctx.categoryName
  experienceEarned := ctx.userEarned
  userLevel := ctx.levelAfter

def published (target : Target) (feed : Feed) : Procedure Success := do
  match ← query (.setShared target true) with
  | .error e =>
    let _ ← query (.deleteFeed feed.id)
    throw e
  | .ok _ =>
    modify (·.withFeed (some feed.id))
    pure ⟨"mission shared to feed", some (.shared feed.id)⟩

theorem runIn_publish_unasked (h : ctx.request.share = false) (w : World) :
    publish.runIn ctx w = ((.ok ⟨"sharing to feed not requested", none⟩, ctx), w) := by
  rw [publish, runIn_get_bind, h]
  rfl

theorem runIn_publish (h : ctx.request.share = true) (htarget : ctx.target = some target) (hm : ctx.mission = some m)
    (w : World) : publish.runIn ctx w = (ask (.createFeed (entry ctx m)) >>= published target).runIn ctx w := by
  have hid : ctx.missionId = some m.id := by rw [Context.missionId, hm, Option.map_some]
  rw [publish, runIn_get_bind, h, htarget, if_neg (by simp), runIn_require_bind, draft, bind_assoc, runIn_get_bind, hid]
  rfl

theorem retriable_publish (htarget : ctx.target = some target) (hm : ctx.mission = some m)
    (hfaults : most.Bounds faults)
    {K : Context → Books → Prop} (hK : K ctx books) :
    Retriable most .createFeed neverRejects K publish ctx books faults := by
  by_cases hnone : faults.awaiting .createFeed = 0
  · exact .of_unawaited hfaults (confined_publish.preserves (tolerates_unawaited (by decide) hnone) ctx () trivial)
  cases hshare : ctx.request.share with
  | false => exact .alike (runIn_publish_unasked hshare _) (runIn_publish_unasked hshare _)
  | true =>
    obtain ⟨service, message, faults', hstrike, hfaults', hfewer⟩ :=
      hfaults.strike_some (c := .createFeed (entry ctx m)) hnone
    refine .fails (e := .collaborator service message) ?_ rfl hfaults' hfewer hK rfl
    rw [runIn_publish hshare htarget hm, runIn_ask_bind_struck hstrike]

theorem publish_calm (htarget : ctx.target = some target) (hm : ctx.mission = some m) (books : Books) :
    (publish.runIn ctx ⟨books, {}⟩).1.1.isOk = true := by
  cases hshare : ctx.request.share with
  | false =>
    rw [runIn_publish_unasked hshare]
    rfl
  | true =>
    rw [runIn_publish hshare htarget hm, runIn_ask_bind (Faults.strike_empty _), published,
      runIn_query_bind (Faults.strike_empty _)]
    rfl

end Sharing

end Missions
