import Missions.Proofs.Completion.Discipline.Invariant
import Missions.Proofs.Completion.Undisturbed.Attempt
import Missions.Proofs.Completion.Undisturbed.Rewards

namespace Missions

open Discipline Minutes Procedure

variable {may : CompletionError → Prop} {r : Request} {ctx : Context} {books books' : Books}
variable {entries : List (Minute CompletionError Receipt)} {e : Minute CompletionError Receipt}

namespace Loading

theorem meets_load_invariant (h : RunInvariant r ⟨ctx, entries⟩ books) :
    load.Meets (terms may entries) (Attempts r entries position CompletionError.isValidation) ctx (books, []) := by
  have hfits : Fits r position := .of_ne (by decide) (by decide)
  have hstops (e : CompletionError) :
      Attempts r entries position CompletionError.isValidation (.error e) ctx (books, []) := h.failed hfits
  rw [load, meets_bind, meets_get]
  dsimp only
  split
  · rw [loadInstance, meets_bind, meets_get]
    dsimp only
    refine ask_bind (by simp) h.toDisciplined trivial hstops (.require_bind (hstops _) fun i hi => ?_)
    refine .check_bind (hstops _) fun huser => .check_bind (hstops _) fun hstatus => ?_
    rw [findMission, bind_assoc]
    refine ask_bind (by simp) h.toDisciplined trivial hstops (.require_bind (hstops _) fun m hm => ?_)
    rw [meets_bind, meets_modify]
    have hloaded : RunInvariant r ⟨ctx.withInstance m i, entries⟩ books := by
      refine h.loads rfl rfl ⟨h.loaded.execution, fun hr hpending j hj => ?_⟩
      obtain rfl : i = j := Option.some.inj hj
      exact ⟨of_decide_eq_true hstatus, h.keyed.instances _ _ hi ▸ hi⟩
    dsimp only
    rw [meets_pure]
    exact hloaded.idle hfits
  · rw [loadExecution, meets_bind, meets_get]
    dsimp only
    rw [findMission, bind_assoc]
    refine ask_bind (by simp) h.toDisciplined trivial hstops (.require_bind (hstops _) fun m hm => ?_)
    refine ask_bind (by simp) h.toDisciplined trivial hstops (.require_bind (hstops _) fun p hp => ?_)
    refine .check_bind (hstops _) fun hactive => ?_
    refine ask_bind (by simp) h.toDisciplined trivial hstops (.require_bind (hstops _) fun x hx => ?_)
    refine .check_bind (hstops _) fun huser => .check_bind (hstops _) fun hstatus => ?_
    rw [meets_bind, meets_modify]
    have hloaded : RunInvariant r ⟨ctx.withExecution m p x, entries⟩ books := by
      refine h.loads rfl rfl ⟨fun hr hpending y q hy hq => ?_, h.loaded.pinned⟩
      obtain rfl : x = y := Option.some.inj hy
      obtain rfl : p = q := Option.some.inj hq
      obtain ⟨hstored, -⟩ := Books.participantOf_eq_some h.keyed hp
      obtain ⟨hopen, hof, hinProgress⟩ := Books.executionInProgress_eq_some h.keyed hx
      exact ⟨hinProgress, hof, hopen, hstored⟩
    dsimp only
    rw [meets_pure]
    exact hloaded.idle hfits

end Loading

/-! ### Rewards -/

namespace UserReward

theorem marked_begun (ctx : Context) (before : Experience) : ctx.MarkedOnly marks (begun ctx before) :=
  (ctx.markedOnly_keep (by decide) _).trans
    ((Context.markedOnly_keep (by decide) _ _).trans (Context.markedOnly_withLevelBefore _ _))

/-- The context of a grant that was made: what the total is now is kept, and the amount. -/
def ended (ctx : Context) (amount : Int) (after : Experience) : Context :=
  ((ctx.keep Snapshot.userTotalAfter after.total).keep Snapshot.userGranted amount).withLevelAfter after.level

theorem marked_ended (ctx : Context) (amount : Int) (after : Experience) :
    ctx.MarkedOnly marks (ended ctx amount after) :=
  (ctx.markedOnly_keep (by decide) _).trans
    ((Context.markedOnly_keep (by decide) _ _).trans (Context.markedOnly_withLevelAfter _ _))

theorem reward_ended (ctx : Context) (amount : Int) (after : Experience) :
    (ended ctx amount after).reward = { ctx.reward with after := some after.total, granted := some amount } := by
  simp (disch := decide) only [ended, Context.reward, Context.kept, Context.keep, Context.withLevelAfter,
    Snapshots.get?_insert_of_ne, Snapshots.get?_insert_self]

theorem keepsBefore_begun (ctx : Context) (books : Books) (grant : ExperienceGrant) :
    (begun ctx (books.experience grant.user)).KeepsBefore books (.grantExperience grant) := by
  constructor <;> simp (disch := decide) only [begun, Context.kept, Context.keep, Context.withLevelBefore,
    Snapshots.get?_insert_of_ne, Snapshots.get?_insert_self]

theorem begun_invariant (h : RunInvariant r ⟨ctx, entries⟩ books) (hpending : Pending entries position)
    (before : Experience) : RunInvariant r ⟨begun ctx before, entries⟩ books :=
  { h with
    user := reward_begun ctx before ▸ h.user.before hpending.not_mutated before.total
    guild := (marked_begun ctx before).guildReward (by decide) ▸ h.guild
    closing := (marked_begun ctx before).closing (by decide) ▸ h.closing
    loaded := h.loaded.congr rfl ⟨rfl, rfl, rfl⟩ }

theorem ended_invariant (h : RunInvariant r ⟨ctx, entries⟩ books) {grant : ExperienceGrant}
    (hbefore : ctx.reward.before = some (books.userTotal grant.user)) (hamount : 0 < grant.amount)
    (he : e.Mutates position) :
    RunInvariant r ⟨ended ctx grant.amount (books.perform (.grantExperience grant)).1, entries ++ [e]⟩
      (books.perform (.grantExperience grant)).2 := by
  have hfits : Fits r position := .of_ne (by decide) (by decide)
  have hmarked := marked_ended ctx grant.amount (books.perform (.grantExperience grant)).1
  have htotal : (books.perform (.grantExperience grant)).1.total = books.userTotal grant.user + grant.amount :=
    Books.userTotal_setUserTotal_self books grant.user _
  have hsame : SameClaims books (books.perform (.grantExperience grant)).2 := ⟨rfl, rfl, rfl⟩
  have hloaded := (h.loaded.congr hmarked.records hsame).append e
  refine h.record (hfits.of_call he.call) rfl ?_ ?_ ?_ (h.keyed.perform _) hloaded
  · rw [reward_ended]
    dsimp only
    rw [hbefore, htotal]
    exact .whole (mutated_append.2 (.inr he)) _ hamount
  · exact h.guild_append hmarked.toMarked (by decide) (he.not_of_ne (by decide))
  · exact h.closing_append hmarked.toMarked (by decide) (he.not_of_ne (by decide)) (he.not_of_ne (by decide))

theorem meets_grant_invariant (h : RunInvariant r ⟨ctx, entries⟩ books) (hpending : Pending entries position) :
    grant.Meets (terms may entries) (Attempts r entries position neverRejects) ctx (books, []) := by
  have hfits : Fits r position := .of_ne (by decide) (by decide)
  rw [grant, meets_bind, meets_get]
  dsimp only
  by_cases hamount : ctx.userEarned ≤ 0
  · rw [if_pos hamount, meets_pure]
    exact h.idle hfits
  rw [if_neg hamount]
  refine ask_bind (by simp) h.toDisciplined trivial (fun e => h.failed hfits) ?_
  simp only [meets_bind, meets_keep, meets_modify, Books.perform]
  have hbegun := begun_invariant h hpending (books.experience ctx.request.user)
  refine meets_ask (by simp) hbegun.toDisciplined (keepsBefore_begun ctx books (grantOf ctx ctx.userEarned))
    (fun e => hbegun.failed hfits) ?_
  refine fun result hok => ended_invariant hbegun ?_ (Int.not_le.1 hamount) ⟨rfl, hok, by simp [Method.writes]⟩
  rw [reward_begun]
  rfl

end UserReward

namespace GuildReward

theorem marked_begun (ctx : Context) (before : GuildExperience) : ctx.MarkedOnly marks (begun ctx before) :=
  (ctx.markedOnly_keep (by decide) _).trans (Context.markedOnly_keep (by decide) _ _)

/-- The context of an addition that was made: what the total is now is kept, and the amount. -/
def ended (ctx : Context) (amount : Int) (after : GuildExperience) : Context :=
  (ctx.keep Snapshot.guildTotalAfter after.total).keep Snapshot.guildGranted amount

theorem marked_ended (ctx : Context) (amount : Int) (after : GuildExperience) :
    ctx.MarkedOnly marks (ended ctx amount after) :=
  (ctx.markedOnly_keep (by decide) _).trans (Context.markedOnly_keep (by decide) _ _)

theorem guildReward_begun (ctx : Context) (before : GuildExperience) :
    (begun ctx before).guildReward = { ctx.guildReward with before := some before.total } := by
  simp (disch := decide) only [begun, Context.guildReward, Context.kept, Context.keep, Snapshots.get?_insert_of_ne,
    Snapshots.get?_insert_self]

theorem guildReward_ended (ctx : Context) (amount : Int) (after : GuildExperience) :
    (ended ctx amount after).guildReward =
      { ctx.guildReward with after := some after.total, granted := some amount } := by
  simp (disch := decide) only [ended, Context.guildReward, Context.kept, Context.keep, Snapshots.get?_insert_of_ne,
    Snapshots.get?_insert_self]

theorem keepsBefore_begun (ctx : Context) (books : Books) (guild amount : Int) (source : GuildCredit) :
    (begun ctx (books.guildExperience guild)).KeepsBefore books (.addGuildExperience guild amount source) := by
  constructor <;> simp (disch := decide) only [begun, Context.kept, Context.keep, Snapshots.get?_insert_of_ne,
    Snapshots.get?_insert_self]

theorem begun_invariant (h : RunInvariant r ⟨ctx, entries⟩ books) (hpending : Pending entries position)
    (before : GuildExperience) : RunInvariant r ⟨begun ctx before, entries⟩ books :=
  { h with
    user := (marked_begun ctx before).reward (by decide) ▸ h.user
    guild := guildReward_begun ctx before ▸ h.guild.before hpending.not_mutated before.total
    closing := (marked_begun ctx before).closing (by decide) ▸ h.closing
    loaded := h.loaded.congr rfl ⟨rfl, rfl, rfl⟩ }

theorem ended_invariant (h : RunInvariant r ⟨ctx, entries⟩ books) {guild amount : Int} {source : GuildCredit}
    (hbefore : ctx.guildReward.before = some (books.guildTotal guild)) (hamount : 0 < amount)
    (he : e.Mutates position) :
    RunInvariant r ⟨ended ctx amount (books.perform (.addGuildExperience guild amount source)).1, entries ++ [e]⟩
      (books.perform (.addGuildExperience guild amount source)).2 := by
  have hfits : Fits r position := .of_ne (by decide) (by decide)
  have hmarked := marked_ended ctx amount (books.perform (.addGuildExperience guild amount source)).1
  have htotal : (books.perform (.addGuildExperience guild amount source)).1.total = books.guildTotal guild + amount :=
    Books.guildTotal_setGuildTotal_self books guild _
  have hsame : SameClaims books (books.perform (.addGuildExperience guild amount source)).2 := ⟨rfl, rfl, rfl⟩
  have hloaded := (h.loaded.congr hmarked.records hsame).append e
  refine h.record (hfits.of_call he.call) rfl ?_ ?_ ?_ (h.keyed.perform _) hloaded
  · exact h.user_append hmarked.toMarked (by decide) (he.not_of_ne (by decide))
  · rw [guildReward_ended]
    dsimp only
    rw [hbefore, htotal]
    exact .whole (mutated_append.2 (.inr he)) _ hamount
  · exact h.closing_append hmarked.toMarked (by decide) (he.not_of_ne (by decide)) (he.not_of_ne (by decide))

theorem meets_grant_invariant (h : RunInvariant r ⟨ctx, entries⟩ books) (hpending : Pending entries position) :
    grant.Meets (terms may entries) (Attempts r entries position neverRejects) ctx (books, []) := by
  have hfits : Fits r position := .of_ne (by decide) (by decide)
  rw [grant, meets_bind, meets_get]
  dsimp only
  refine .require_bind (h.failed hfits) fun guild hguild => ?_
  by_cases hamount : ctx.guildEarned ≤ 0
  · rw [if_pos hamount, meets_pure]
    exact h.idle hfits
  rw [if_neg hamount, credit, bind_assoc, meets_bind, meets_get]
  dsimp only
  rw [bind_assoc]
  refine .require_bind (h.failed hfits) fun mission hmission => ?_
  rw [pure_bind]
  refine ask_bind (by simp) h.toDisciplined trivial (fun e => h.failed hfits) ?_
  simp only [meets_bind, meets_keep, Books.perform]
  have hbegun := begun_invariant h hpending (books.guildExperience guild)
  refine meets_ask (by simp) hbegun.toDisciplined (keepsBefore_begun ctx books guild ctx.guildEarned _)
    (fun e => hbegun.failed hfits) ?_
  refine fun result hok => ended_invariant hbegun ?_ (Int.not_le.1 hamount) ⟨rfl, hok, by simp [Method.writes]⟩
  rw [guildReward_begun]
  rfl

end GuildReward

/-! ### Closing -/

namespace Closing

/-- The context of an attempt that is under way: what the status was is kept. -/
def begun (ctx : Context) (i : Instance) : Context := ctx.keep Snapshot.targetBefore i.status

/-- The context of an attempt that closed the instance: what the status is now is kept. -/
def ended (ctx : Context) : Context := (ctx.keep Snapshot.targetAfter .completed).withInstanceStatus .completed

theorem marked_begun (ctx : Context) (i : Instance) : ctx.MarkedOnly marks (begun ctx i) :=
  ctx.markedOnly_keep (by decide) _

theorem marked_ended (ctx : Context) : ctx.Marked marks (ended ctx) :=
  (ctx.markedOnly_keep (by decide) _).toMarked.trans (Context.marked_withInstanceStatus _ _)

theorem closing_begun (ctx : Context) (i : Instance) :
    (begun ctx i).closing = { ctx.closing with targetBefore := some i.status } := by
  simp (disch := decide) only [begun, Context.closing, Context.kept, Context.keep, Snapshots.get?_insert_of_ne,
    Snapshots.get?_insert_self]

theorem closing_ended (ctx : Context) :
    (ended ctx).closing = { ctx.closing with targetAfter := some .completed } := by
  simp (disch := decide) only [ended, Context.closing, Context.kept, Context.keep, Context.withInstanceStatus,
    Snapshots.get?_insert_of_ne, Snapshots.get?_insert_self]

variable (hr : r.pinned = true)
include hr

theorem begun_invariant (h : RunInvariant r ⟨ctx, entries⟩ books) (hpending : Pending entries position) (i : Instance) :
    RunInvariant r ⟨begun ctx i, entries⟩ books :=
  { h with
    user := (marked_begun ctx i).reward (by decide) ▸ h.user
    guild := (marked_begun ctx i).guildReward (by decide) ▸ h.guild
    closing := h.closing.begun (h.not_advanced hr) hpending.not_mutated
      (by rw [closing_begun]) (by rw [closing_begun]) (by rw [closing_begun])
    loaded := h.loaded.congr rfl ⟨rfl, rfl, rfl⟩ }

theorem ended_invariant (h : RunInvariant r ⟨ctx, entries⟩ books) (hpending : Pending entries position)
    (hbefore : ctx.closing.targetBefore = some .inProgress) (hkeyed : books'.Keyed) (he : e.Mutates position) :
    RunInvariant r ⟨ended ctx, entries ++ [e]⟩ books' := by
  have hmarked := marked_ended ctx
  have hloaded : AsLoaded r ⟨ended ctx, entries ++ [e]⟩ books' :=
    .closed hr (not_pending_append he.call he.isRetryable_eq_false)
  refine h.record ((Fits.closing hr).of_call he.call) rfl ?_ ?_ ?_ hkeyed hloaded
  · exact h.user_append hmarked (by decide) (he.not_of_ne (by decide))
  · exact h.guild_append hmarked (by decide) (he.not_of_ne (by decide))
  · have hclosed := h.closing.close (h.not_advanced hr) hpending.not_mutated
      (mutated_append.2 (.inr he) : Mutated (entries ++ [e]) position)
    rw [closing_ended, mutated_append_of_not (he.not_of_ne (by decide))]
    rw [← hbefore] at hclosed
    exact hclosed

theorem meets_close_invariant (h : RunInvariant r ⟨ctx, entries⟩ books) (hpending : Pending entries position) :
    close.Meets (terms may entries) (Attempts r entries position losesClaim) ctx (books, []) := by
  have hfits : Fits r position := .closing hr
  rw [close, meets_bind, meets_get]
  dsimp only
  refine .require_bind (h.failed hfits) fun i hi => ?_
  obtain ⟨hstatus, hstored⟩ := h.loaded.pinned hr hpending i hi
  have hbegun := begun_invariant hr h hpending i
  have hbefore : (begun ctx i).closing.targetBefore = some i.status := by rw [closing_begun]
  rw [meets_bind, meets_keep]
  dsimp only
  refine ask_bind (by simp) hbegun.toDisciplined ⟨i, hstored, hbefore⟩ (fun e => hbegun.failed hfits) ?_
  have hclaim : books.perform (.completeInstance i.id) =
      (true, books.putInstance { i with status := .completed }) := by
    simp only [Books.perform, Books.completeInstance, hstored, if_pos hstatus]
  rw [hclaim, meets_bind, meets_check, if_pos rfl]
  simp only [meets_bind, meets_keep, meets_modify]
  exact fun result hok => ended_invariant hr hbegun hpending (hstatus ▸ hbefore) (h.keyed.putInstance _)
    ⟨rfl, hok, by simp [Method.writes]⟩

end Closing

namespace Advance

theorem marked_begun (ctx : Context) (p : Participant) (x : Execution) : ctx.MarkedOnly closingMarks (begun ctx p x) :=
  (ctx.markedOnly_keep (by decide) _).trans
    ((Context.markedOnly_keep (by decide) _ _).trans (Context.markedOnly_keep (by decide) _ _))

theorem marked_ended (ctx : Context) (updated : Participant) : ctx.Marked closingMarks (ended ctx updated) :=
  (ctx.markedOnly_keep (by decide) _).toMarked.trans <| (Context.markedOnly_keep (by decide) _ _).toMarked.trans <|
    (Context.markedOnly_keep (by decide) _ _).toMarked.trans <|
      (Context.marked_withExecutionStatus _ _).trans (Context.marked_withParticipant _ _)

variable (hr : r.pinned = false)
include hr

theorem begun_invariant (h : RunInvariant r ⟨ctx, entries⟩ books) (hpending : Pending entries position)
    (p : Participant)
    (x : Execution) : RunInvariant r ⟨begun ctx p x, entries⟩ books :=
  { h with
    user := (marked_begun ctx p x).reward (by decide) ▸ h.user
    guild := (marked_begun ctx p x).guildReward (by decide) ▸ h.guild
    closing := h.closing.begun hpending.not_mutated (h.not_closed hr)
      (by rw [closing_begun]) (by rw [closing_begun]) (by rw [closing_begun])
    loaded := h.loaded.congr (facets_begun ctx p x).2.2 ⟨rfl, rfl, rfl⟩ }

theorem stuck_invariant (h : RunInvariant r ⟨ctx, entries⟩ books) (hkeyed : books'.Keyed) {result : CompletionResult}
    (hfailed : result.isSuccess = false) (hlast : result.isRetryable = false) {performed : List Call} :
    RunInvariant r ⟨ctx, entries ++ [⟨.execute position, result, performed⟩]⟩ books' := by
  have hinvariant : RunInvariant r ⟨ctx, entries ++ [⟨.execute position, result, performed⟩]⟩ books :=
    h.attempt_quiet (.advance hr) fun hok => absurd (hfailed.symm.trans hok) Bool.false_ne_true
  exact hinvariant.unmarked (.refl _) hkeyed (.advanced hr (not_pending_append rfl hlast))

theorem ended_invariant (h : RunInvariant r ⟨ctx, entries⟩ books) {p : Participant} {x : Execution}
    (hstatus : x.status = .inProgress) {updated : Participant} (hkeyed : books'.Keyed) (he : e.Mutates position) :
    RunInvariant r ⟨ended (begun ctx p x) updated, entries ++ [e]⟩ books' := by
  have hmarked := (marked_begun ctx p x).toMarked.trans (marked_ended (begun ctx p x) updated)
  have hrequest := congrArg Context.Brief.request hmarked.brief
  have hloaded : AsLoaded r ⟨ended (begun ctx p x) updated, entries ++ [e]⟩ books' :=
    .advanced hr (not_pending_append he.call he.isRetryable_eq_false)
  refine h.record ((Fits.advance hr).of_call he.call) hrequest ?_ ?_ ?_ hkeyed hloaded
  · exact h.user_append hmarked (by decide) (he.not_of_ne (by decide))
  · exact h.guild_append hmarked (by decide) (he.not_of_ne (by decide))
  · have hnot : ¬ e.Mutates Closing.position := he.not_of_ne (by decide)
    rw [closing_ended, closing_begun, hstatus, mutated_append_of_not hnot]
    exact .advanced (mutated_append.2 (.inr he)) (h.not_closed hr) _ _ _ _

theorem meets_update_outcome (h : RunInvariant r ⟨ctx, entries⟩ books) (hpending : Pending entries position) :
    update.Meets (Books.protocol may Context) (fun outcome ctx' books' => ∀ performed,
      (outcome.isOk = true → performed ≠ []) →
        Attempts r entries position losesClaim outcome ctx' (books', performed)) ctx books := by
  have hfits : Fits r position := .advance hr
  refine meets_update_of_attempts (fun what performed _ => h.failed hfits)
    fun m p x hm hp hx outcome ctx' g hattempt performed hperformed => ?_
  obtain ⟨hstatus, hof, hopen, hstored⟩ := h.loaded.execution hr hpending x p hx hp
  have hbegun := begun_invariant hr h hpending p x
  have hclaim : books.completeExecution x.id = (true, books.putExecution { x with status := .completed }) := by
    simp only [Books.completeExecution, hopen, if_pos hstatus]
  cases hattempt with
  | lost | refused => exact hbegun.failed hfits
  | released hclaimed =>
    obtain rfl := (Prod.mk.inj (hclaim.symm.trans hclaimed)).2
    have hback : (books.putExecution { x with status := .completed }).putExecution { x with status := .inProgress } =
        books := by
      rw [← hstatus]
      exact Books.putExecution_putExecution hopen rfl
    rw [hback]
    exact hbegun.failed hfits
  | stuck hclaimed =>
    obtain rfl := (Prod.mk.inj (hclaim.symm.trans hclaimed)).2
    exact fun result hfailed hlast => stuck_invariant hr hbegun (h.keyed.putExecution _) hfailed (hlast rfl)
  | closed hclaimed hupdated =>
    obtain rfl := (Prod.mk.inj (hclaim.symm.trans hclaimed)).2
    exact fun result hok => ended_invariant hr h hstatus ((h.keyed.putExecution _).putParticipant _)
      ⟨rfl, hok, hperformed rfl⟩

theorem meets_update_calls (h : RunInvariant r ⟨ctx, entries⟩ books) (hpending : Pending entries position) :
    update.Meets (terms may entries) (fun outcome _ g => outcome.isOk = true → g.2 ≠ []) ctx (books, []) := by
  have hstops {performed : List Call} (e : CompletionError) :
      (Except.error e : Except CompletionError Success).isOk = true → performed ≠ [] :=
    fun hok => absurd hok Bool.false_ne_true
  rw [update, meets_bind, meets_get]
  dsimp only
  refine .require_bind (hstops _) fun x hx => .require_bind (hstops _) fun p hp =>
    .require_bind (hstops _) fun m hm => ?_
  obtain ⟨-, hof, hopen, hstored⟩ := h.loaded.execution hr hpending x p hx hp
  have hbegun := begun_invariant hr h hpending p x
  have hclosing := closing_begun ctx p x
  have hbefore : (begun ctx p x).KeepsBefore books (.completeExecution x.id) :=
    ⟨x, p, hopen, hof ▸ hstored, congrArg Context.ClosingMarks.targetBefore hclosing,
      congrArg Context.ClosingMarks.progressBefore hclosing, congrArg Context.ClosingMarks.participantBefore hclosing⟩
  -- after the claim no call needs anything kept, and the claim is noted
  have hprogress : Tolerates (terms may entries) (fun ctx g => (⟨ctx, entries⟩ : CompletionMinutes).Disciplined ∧
      g.2 ≠ []) progressMethods Eq := tolerates_written.fewer (by decide)
  have hundo : Tolerates (terms may entries) (fun ctx g => (⟨ctx, entries⟩ : CompletionMinutes).Disciplined ∧
      g.2 ≠ []) undoMethods Eq := tolerates_written.fewer (by decide)
  simp only [meets_bind, meets_keep]
  rw [Procedure.meets_ask]
  refine ⟨⟨hbegun.toDisciplined, hbefore⟩, fun answer g' hanswer => ?_⟩
  rcases answer with e | _ | _
  · exact hstops e
  · exact hstops _
  · dsimp only
    rw [meets_check, if_pos rfl]
    have hnoted : g'.2 ≠ [] := by
      rw [hanswer.2]
      simp [Note.performed, Method.writes]
    have hrecords := (confined_recordProgress p m.totalExecutions).preserves hprogress
    refine (hrecords.outcome _ _ ⟨hbegun.toDisciplined, hnoted⟩).mono fun recorded ctx' g hg => ?_
    rcases recorded with e | e | updated
    · exact hstops e
    · exact ((confined_release x e).preserves hundo).meets_bind hg (fun _ _ _ _ => hstops _) fun _ _ _ _ => hstops _
    · exact fun _ => hg.2

theorem meets_update_invariant (h : RunInvariant r ⟨ctx, entries⟩ books) (hpending : Pending entries position) :
    update.Meets (terms may entries) (Attempts r entries position losesClaim) ctx (books, []) := by
  have houtcome : update.Meets (Books.protocol may Context) _ ctx books := meets_update_outcome hr h hpending
  exact (houtcome.and_noting (meets_update_calls hr h hpending) fun _ _ _ _ _ hanswered => hanswered).mono
    fun _ _ hboth => hboth.1 _ hboth.2

end Advance

end Missions
