import Missions.Proofs.Completion.Claims.Keeping
import Missions.Proofs.Completion.Outcome

/-! A completion holds nothing until it claims its record. An attempt that fails afterwards gives the record up or
says that it could not, and from the end of the closing step on the run holds the record until it puts it back. -/

namespace Missions

open Procedure

namespace Standing

variable {g : Standing} {ctx : Context} {c : Call} {answer : Except CompletionError c.Answer}

structure Unclaimed (r : Request) (ctx : Context) (g : Standing) : Prop where
  request : ctx.request = r
  unmarked : ctx.kept Snapshot.targetAfter = none
  standing : g = {}

/-- A run of the request that holds the record that it has loaded, and has put nothing back. -/
structure Holds (r : Request) (ctx : Context) (g : Standing) : Prop where
  request : ctx.request = r
  standing : ∃ t, ctx.target = some t ∧ g = { held := some t }

structure Unclaimed.Loaded (r : Request) (t : Target) (ctx : Context) (g : Standing) : Prop
    extends Unclaimed r ctx g where
  target : ctx.target = some t

structure Claimed (r : Request) (t : Target) (ctx : Context) (g : Standing) : Prop where
  request : ctx.request = r
  target : ctx.target = some t
  unmarked : ctx.kept Snapshot.targetAfter = none
  standing : g = { held := some t }

/-- A run that went through holds its record and has not put it back. -/
def Final (outcome : Except Interruption (Except CompletionError Completion × AuditLog)) (g : Standing) : Prop :=
  ∀ completion audit, outcome = .ok (.ok completion, audit) → g.held.isSome ∧ g.putBack = false

/-- How the step that closes the record fails: with an error that passes only if the run holds nothing. -/
def NotClosed (r : Request) (e : CompletionError) (ctx : Context) (g : Standing) : Prop :=
  (losesClaim e = false → Unclaimed r ctx g) ∧ g.Fair ctx

variable {r : Request}

theorem Holds.held (h : Holds r ctx g) {t : Target} (ht : ctx.target = some t) : g.held = some t := by
  obtain ⟨-, t', ht', rfl⟩ := h
  exact ht'.symm.trans ht

theorem Unclaimed.fair (h : Unclaimed r ctx g) : g.Fair ctx := by
  obtain ⟨-, hunmarked, rfl⟩ := h
  constructor <;> simp [hunmarked]

theorem Holds.fair (h : Holds r ctx g) : g.Fair ctx := by
  obtain ⟨-, t, ht, rfl⟩ := h
  constructor <;> simp [ht]

theorem Claimed.holds {t : Target} (h : Claimed r t ctx g) : Holds r ctx g :=
  ⟨h.request, t, h.target, h.standing⟩

theorem Unclaimed.Loaded.allowed {t : Target} (h : Unclaimed.Loaded r t ctx g) (hclaims : Turn.claims c = some t)
    (hsaves : Turn.saves c = none) : protocol.allowed ctx g c := by
  refine ⟨h.fair, fun t' ht' => ?_, fun t' ht' => ?_⟩
  · rw [h.target, ← ht', hclaims]
  · simp [hsaves] at ht'

theorem Unclaimed.Loaded.after_claim {t : Target} (h : Unclaimed.Loaded r t ctx g) (hclaims : Turn.claims c = some t)
    (hsaves : Turn.saves c = none) (hok : Turn.succeeds c answer = true) :
    Claimed r t ctx (g.after ⟨ctx, c, answer⟩) := by
  obtain ⟨⟨hrequest, hunmarked, rfl⟩, htarget⟩ := h
  exact ⟨hrequest, htarget, hunmarked, after_of_claim hclaims hsaves hok⟩

theorem Claimed.closed {t : Target} (h : Claimed r t ctx g) {ctx' : Context} (hrequest : ctx'.request = ctx.request)
    (htarget : ctx'.target = ctx.target) : Holds r ctx' g :=
  ⟨hrequest.trans h.request, t, htarget.trans h.target, h.standing⟩

theorem settles_fair : Settles fun ctx g => g.Fair ctx where
  fair _ _ h := h
  stance ctx ctx' g hstance h := by
    obtain ⟨-, -, htarget, hafter⟩ := Context.stance_eq_iff.1 hstance
    exact ⟨htarget ▸ h.shown, hafter ▸ h.marked⟩

theorem settles_unclaimed : Settles (Unclaimed r) where
  fair _ _ h := h.fair
  stance ctx ctx' g hstance h := by
    obtain ⟨hrequest, -, -, hafter⟩ := Context.stance_eq_iff.1 hstance
    exact ⟨hrequest.trans h.request, hafter.trans h.unmarked, h.standing⟩

theorem settles_holds : Settles (Holds r) where
  fair _ _ h := h.fair
  stance ctx ctx' g hstance h := by
    obtain ⟨hrequest, -, htarget, -⟩ := Context.stance_eq_iff.1 hstance
    exact ⟨hrequest.trans h.request, htarget ▸ h.standing⟩

theorem settles_loaded {t : Target} : Settles (Unclaimed.Loaded r t) where
  fair _ _ h := h.fair
  stance ctx ctx' g hstance h := by
    obtain ⟨-, -, htarget, -⟩ := Context.stance_eq_iff.1 hstance
    exact ⟨settles_unclaimed.stance ctx ctx' g hstance h.toUnclaimed, htarget.trans h.target⟩

theorem settles_claimed {t : Target} : Settles (Claimed r t) where
  fair _ _ h := h.holds.fair
  stance ctx ctx' g hstance h := by
    obtain ⟨hrequest, -, htarget, hafter⟩ := Context.stance_eq_iff.1 hstance
    exact ⟨hrequest.trans h.request, htarget.trans h.target, hafter.trans h.unmarked, h.standing⟩

theorem Unclaimed.notClosed (h : Unclaimed r ctx g) (e : CompletionError) : NotClosed r e ctx g :=
  ⟨fun _ => h, h.fair⟩

theorem tolerates_loads : Tolerates protocol (Unclaimed r) Loading.methods Loading.Loads where
  call {ctx g c} h hc := settles_unclaimed.call h (by cases c <;> first | exact ⟨rfl, rfl⟩ | cases hc)
  change {ctx ctx' g} h hloads := by
    refine ⟨hloads.request.trans h.request, ?_, h.standing⟩
    rw [Context.kept, hloads.snapshots]
    exact h.unmarked

end Standing

namespace Advance

open Standing

variable {r : Request} {ctx : Context} {g : Standing}

theorem meets_release_held {x : Execution} (h : Claimed r (.execution x.id) ctx g) (cause : CompletionError) :
    (release x cause >>= throw (α := Success)).Meets protocol (Either (Holds r) (NotClosed r)) ctx g := by
  have hfair := h.holds.fair
  obtain ⟨hrequest, htarget, hunmarked, rfl⟩ := h
  rw [release, bind_assoc, meets_bind, meets_query]
  refine ⟨⟨hfair, nofun, fun t ht => ht⟩, ?_⟩
  rintro answer _ ⟨-, rfl⟩
  cases answer with
  | ok =>
    refine Unclaimed.notClosed ⟨hrequest, hunmarked, ?_⟩ cause
    exact after_of_release rfl rfl hunmarked rfl
  | error e =>
    rw [after_of_failed rfl]
    exact ⟨nofun, hfair⟩

theorem meets_update_held (hr : r.pinned = false) (h : Unclaimed r ctx g) :
    update.Meets protocol (Either (Holds r) (NotClosed r)) ctx g := by
  rw [update, meets_bind, meets_get]
  dsimp only
  refine .require_bind (h.notClosed _) fun x hx => .require_bind (h.notClosed _) fun p _ => ?_
  refine .require_bind (h.notClosed _) fun m _ => ?_
  have hloaded : Unclaimed.Loaded r (.execution x.id) ctx g :=
    ⟨h, Context.target_of_execution (h.request ▸ hr) hx⟩
  refine (settles_loaded.keep (by decide) _).meets_bind hloaded (fun e _ _ h => h.notClosed e) fun _ _ _ h => ?_
  refine (settles_loaded.keep (by decide) _).meets_bind h (fun e _ _ h => h.notClosed e) fun _ _ _ h => ?_
  refine (settles_loaded.keep (by decide) _).meets_bind h (fun e _ _ h => h.notClosed e) fun _ ctx g h => ?_
  rw [meets_bind, meets_ask]
  refine ⟨h.allowed rfl rfl, ?_⟩
  rintro (e | claimed) _ ⟨-, rfl⟩
  · rw [after_of_failed rfl]
    exact h.notClosed e
  cases claimed with
  | false =>
    rw [after_of_failed rfl]
    exact h.notClosed _
  | true =>
    have hclaimed : Claimed r (.execution x.id) ctx (g.after ⟨ctx, .completeExecution x.id, .ok true⟩) :=
      h.after_claim rfl rfl rfl
    dsimp only
    rw [meets_bind, meets_check, if_pos rfl]
    dsimp only
    rw [meets_bind, meets_outcome]
    refine ((confined_recordProgress p _).preserves settles_claimed.progress _ _ hclaimed).mono fun result ctx g h => ?_
    cases result with
    | error e => exact meets_release_held h e
    | ok updated =>
      simp only [meets_bind, meets_keep, meets_modify, meets_pure, Either]
      have htarget := Context.target_withExecutionStatus (((ctx.keep Snapshot.targetAfter .completed).keep
        Snapshot.progressAfter updated.progress).keep Snapshot.participantAfter updated.status) .completed
      exact h.closed rfl htarget

theorem meets_restoreExecution_held {id : Int} {before after : ExecutionStatus} (h : g.Fair ctx)
    (hheld : g.held = some (.execution id)) (hmarked : (ctx.kept Snapshot.targetAfter).isSome) :
    (restoreExecution id before after).Meets protocol (fun _ ctx g => g.Fair ctx) ctx g := by
  rw [restoreExecution, meets_bind, meets_ask]
  refine ⟨⟨h, nofun, nofun⟩, ?_⟩
  rintro answer _ ⟨htruthful, rfl⟩
  rw [after_of_quiet ⟨rfl, rfl⟩]
  cases answer with
  | error e => exact h
  | ok found =>
    refine .require_bind h fun current hcurrent => ?_
    obtain rfl := hcurrent
    split
    · exact h
    split
    · exact h
    rw [meets_bind, meets_ask]
    refine ⟨⟨h, nofun, fun t ht => ?_⟩, ?_⟩
    · rw [hheld, ← ht, ← show current.id = id from htruthful]
      rfl
    · rintro answer _ ⟨-, rfl⟩
      have hsaved : (g.after ⟨ctx, .saveExecution { current with status := before }, answer⟩).Fair ctx :=
        h.after_save rfl rfl hmarked
      cases answer <;> exact hsaved

theorem meets_revert_held (hr : r.pinned = false) (h : Holds r ctx g) :
    revert.Meets protocol (fun _ ctx g => g.Fair ctx) ctx g := by
  rw [revert, meets_bind, meets_get]
  dsimp only
  split
  · next before after hbefore hafter =>
    refine .require_bind h.fair fun x hx => .require_bind h.fair fun m _ => ?_
    have hheld : g.held = some (.execution x.id) := h.held (Context.target_of_execution (h.request ▸ hr) hx)
    rw [meets_bind, meets_outcome]
    refine (meets_restoreExecution_held h.fair hheld (by simp [hafter])).mono fun result ctx g h => ?_
    have hreopened : Preserves protocol (fun ctx g => g.Fair ctx) (modify fun ctx : Context =>
        if result.isOk then ctx.withExecutionStatus before else ctx) := by
      refine settles_fair.modify fun ctx => ?_
      split
      · exact ctx.stance_withExecutionStatus before
      · rfl
    refine (hreopened.bind fun _ => ?_) ctx g h
    have hrestores : Tolerates _ _ participantMethods _ := settles_fair.progress.fewer (by decide)
    refine .bind ((confined_restoreParticipant m.id).preserves hrestores).outcome fun result' => ?_
    refine .bind (settles_fair.modify fun ctx => ?_) fun _ => ?_
    · split <;> rfl
    · split <;> first | exact preserves_pure _ | exact preserves_throw _
  · exact h.fair

end Advance

namespace Closing

open Standing

variable {r : Request} {ctx : Context} {g : Standing}

theorem meets_close_held (hr : r.pinned = true) (h : Unclaimed r ctx g) :
    close.Meets protocol (Either (Holds r) (NotClosed r)) ctx g := by
  rw [close, meets_bind, meets_get]
  dsimp only
  refine .require_bind (h.notClosed _) fun i hi => ?_
  have hloaded : Unclaimed.Loaded r (.pinned i.id) ctx g := ⟨h, Context.target_of_pinned (h.request ▸ hr) hi⟩
  refine (settles_loaded.keep (by decide) _).meets_bind hloaded (fun e _ _ h => h.notClosed e)
    fun _ ctx g h => ?_
  rw [meets_bind, meets_ask]
  refine ⟨h.allowed rfl rfl, ?_⟩
  rintro (e | claimed) _ ⟨-, rfl⟩
  · rw [after_of_failed rfl]
    exact h.notClosed e
  cases claimed with
  | false =>
    rw [after_of_failed rfl]
    exact h.notClosed _
  | true =>
    have hclaimed : Claimed r (.pinned i.id) ctx (g.after ⟨ctx, .completeInstance i.id, .ok true⟩) :=
      h.after_claim rfl rfl rfl
    dsimp only
    rw [meets_bind, meets_check, if_pos rfl]
    dsimp only
    simp only [meets_bind, meets_keep, meets_modify, meets_pure, Either]
    exact hclaimed.closed rfl (Context.target_withInstanceStatus _ _)

theorem meets_revert_held (hr : r.pinned = true) (h : Holds r ctx g) :
    revert.Meets protocol (fun _ ctx g => g.Fair ctx) ctx g := by
  rw [revert, meets_bind, meets_get]
  dsimp only
  split
  · next before after hbefore hafter =>
    refine .require_bind h.fair fun i hi => ?_
    have hheld : g.held = some (.pinned i.id) := h.held (Context.target_of_pinned (h.request ▸ hr) hi)
    have h := h.fair
    rw [meets_bind, meets_ask]
    refine ⟨⟨h, nofun, nofun⟩, ?_⟩
    rintro answer _ ⟨htruthful, rfl⟩
    rw [after_of_quiet ⟨rfl, rfl⟩]
    cases answer with
    | error e => exact h
    | ok found =>
      refine .require_bind h fun current hcurrent => ?_
      obtain rfl := hcurrent
      split
      · exact h
      split
      · exact h
      rw [meets_bind, meets_ask]
      refine ⟨⟨h, nofun, fun t ht => ?_⟩, ?_⟩
      · rw [hheld, ← ht, ← show current.id = i.id from htruthful]
        rfl
      · rintro answer _ ⟨-, rfl⟩
        have hsaved : (g.after ⟨ctx, .saveInstance { current with status := before }, answer⟩).Fair ctx :=
          h.after_save rfl rfl (by simp [hafter])
        cases answer with
        | error e => exact hsaved
        | ok => exact settles_fair.stance _ _ _ (ctx.stance_withInstanceStatus before) hsaved
  · exact h.fair

end Closing

namespace Completion

open Standing

variable {policy : CompletionStep → RetryPolicy} {r : Request}

theorem visits_sharing_held {U : Aborted CompletionError → Context → Standing → Prop} :
    Run.Visits protocol policy [Sharing.step] (Holds r) (Holds r) U :=
  visits_passing rfl rfl (fun _ _ _ => rfl) (Sharing.confined_publish.preserves settles_holds.sharing)

theorem visits_ending_held : Run.Visits protocol policy [GuildReward.step, Sharing.step] (Holds r) (Holds r)
    (Undone fun _ _ => Holds r) := by
  -- whether the guild's step applies is settled before it, and stays so while it is tried again
  have hguild (isGuildMission : Bool) : Run.Visits protocol policy [GuildReward.step, Sharing.step]
      (fun ctx g => Holds r ctx g ∧ ctx.isGuildMission = isGuildMission) (Holds r) (Undone fun _ _ => Holds r) := by
    have hsharing {U : Aborted CompletionError → Context → Standing → Prop} : Run.Visits protocol policy [Sharing.step]
        (fun ctx g => Holds r ctx g ∧ ctx.isGuildMission = isGuildMission) (Holds r) U :=
      visits_sharing_held.mono (fun _ _ h => h.1) (fun _ _ h => h) fun _ _ _ h => h
    cases isGuildMission with
    | false => exact .skip (fun _ _ h => h.2) hsharing
    | true =>
      have hgrant (ctx : Context) (g : Standing) (h : Holds r ctx g ∧ ctx.isGuildMission = true) :=
        (GuildReward.confined_grant.preserves (settles_holds.guild true).guildReward).either h
      exact visits_settled rfl rfl rfl (fun _ _ h => h.2) hgrant (fun _ _ _ _ h => h) hsharing
        (V := fun _ _ _ _ => False) (fun _ _ _ _ h => h.elim) fun _ _ _ h => h.1
  exact (Run.Visits.exists hguild).mono (fun ctx g h => ⟨_, h, rfl⟩) (fun _ _ h => h) fun _ _ _ h => h

theorem visits_closing_held : Run.Visits protocol policy
    [Advance.step, Closing.step, GuildReward.step, Sharing.step] (Unclaimed r) (Holds r)
    (Undone fun _ _ ctx g => g.Fair ctx) := by
  -- an attempt is made again only if its error passes, and then the run holds nothing
  have hagain (e : CompletionError) (ctx : Context) (g : Standing) (hpasses : losesClaim e = false)
      (h : NotClosed r e ctx g) : Unclaimed r ctx g := h.1 hpasses
  have hstop (e : CompletionError) (ctx : Context) (g : Standing) (h : NotClosed r e ctx g) : g.Fair ctx := h.2
  cases hr : r.pinned with
  | false =>
    have hregular (ctx : Context) (hrequest : ctx.request = r) : ctx.request.pinned = false := by rw [hrequest, hr]
    have happlies (ctx : Context) (g : Standing) (h : Unclaimed r ctx g) : Advance.step.applies ctx = true :=
      congrArg not (hregular ctx h.request)
    have hskips : Run.Visits protocol policy [Closing.step, GuildReward.step, Sharing.step] (Holds r) (Holds r)
        (Undone fun _ _ => Holds r) := .skip (fun ctx g h => hregular ctx h.request) visits_ending_held
    refine visits_settled rfl rfl rfl happlies (fun ctx g h => Advance.meets_update_held hr h) hagain hskips
      (fun _ _ ctx g h => ?_) hstop
    exact (Advance.meets_revert_held hr h).mono fun result _ _ h => by cases result <;> exact h
  | true =>
    have hpinned (ctx : Context) (hrequest : ctx.request = r) : ctx.request.pinned = true := by rw [hrequest, hr]
    refine .skip (fun ctx g h => congrArg not (hpinned ctx h.request)) ?_
    refine visits_settled rfl rfl rfl (fun ctx g h => hpinned ctx h.request)
      (fun ctx g h => Closing.meets_close_held hr h) hagain visits_ending_held (fun _ _ ctx g h => ?_) hstop
    exact (Closing.meets_revert_held hr h).mono fun result _ _ h => by cases result <;> exact h

theorem visits_rewarding_held : Run.Visits protocol policy
    [UserReward.step, Advance.step, Closing.step, GuildReward.step, Sharing.step] (Unclaimed r) (Holds r)
    (Undone fun _ _ ctx g => g.Fair ctx) := by
  have hgrant (ctx : Context) (g : Standing) (h : Unclaimed r ctx g) :=
    (UserReward.confined_grant.preserves settles_unclaimed.userReward).either h
  have hundo : Tolerates _ _ UserReward.undoMethods _ := (settles_fair.userReward.fewer (by decide)).unmarkedOnly
  have hrevert (_ : List String) (_ : Option CompletionError) (ctx : Context) (g : Standing) (h : g.Fair ctx) :=
    (UserReward.confined_revert.preserves hundo).either h
  exact visits_settled rfl rfl rfl (fun _ _ _ => rfl) hgrant (fun _ _ _ _ h => h) visits_closing_held hrevert
    fun _ _ _ h => h.fair

variable (policy r) in
theorem visits_all_held : Run.Visits protocol policy
    [Loading.step, UserReward.step, Advance.step, Closing.step, GuildReward.step, Sharing.step] (Unclaimed r) (Holds r)
    (Undone fun _ _ ctx g => g.Fair ctx) := by
  have hload (ctx : Context) (g : Standing) (h : Unclaimed r ctx g) :=
    (Loading.confined_load.preserves tolerates_loads).either h
  exact visits_settled rfl rfl Loading.compensate_eq_settle (fun _ _ _ => rfl) hload (fun _ _ _ _ h => h)
    visits_rewarding_held (fun _ _ _ _ h => h) fun _ _ _ h => h.fair

/-- Whatever it is answered, a completion claims only the record that it shows and saves it only while it holds it. If
it goes through it holds its record. -/
theorem obeys_complete_claims (o : Operation) (request : Request) : (o.complete request).Obeys protocol Final {} := by
  have hvisits := visits_all_held o.saga.policyFor (o.effective request)
  rw [← o.steps_saga] at hvisits
  refine o.obeys_complete hvisits request ⟨rfl, rfl, rfl⟩ (Q := Final) ?_ ?_ ?_
  · rintro ctx g report audit ⟨-, t, -, rfl⟩ completion audit' -
    exact ⟨rfl, rfl⟩
  · intro a ctx g audit _ completion audit' hok
    simp at hok
  · intro i g _ completion audit hok
    simp at hok

end Completion

end Missions
