import Missions.Completion.Advance
import Missions.Completion.Closing
import Missions.Proofs.Completion.Compensation.Guard
import Missions.Proofs.Completion.Undisturbed.Rewards

namespace Missions

namespace Context

def guildReward (ctx : Context) : RewardMarks :=
  ⟨ctx.kept Snapshot.guildTotalBefore, ctx.kept Snapshot.guildTotalAfter, ctx.kept Snapshot.guildGranted⟩

def RewardMarks.span (marks : RewardMarks) : Option (Int × Int) :=
  match marks.before, marks.after, marks.granted with
  | some before, some after, some _ => some (before, after)
  | _, _, _ => none

theorem RewardMarks.span_eq_some {marks : RewardMarks} {before after : Int} :
    marks.span = some (before, after) ↔ ∃ amount, marks = ⟨some before, some after, some amount⟩ := by
  obtain ⟨before' | before', after' | after', granted | granted⟩ := marks <;> simp [span]

theorem RewardMarks.span_eq_none {marks : RewardMarks} (h : ∀ before after amount, marks.before = some before →
    marks.after = some after → marks.granted = some amount → False) : marks.span = none := by
  refine Option.eq_none_iff_forall_ne_some.2 fun ⟨before, after⟩ hspan => ?_
  obtain ⟨amount, rfl⟩ := span_eq_some.1 hspan
  exact h before after amount rfl rfl rfl

/-- The amount is all that lies between the totals. -/
def RewardMarks.Exact (marks : RewardMarks) : Prop :=
  ∀ before after amount, marks = ⟨some before, some after, some amount⟩ → before + amount = after

def ClosingMarks.span (marks : ClosingMarks) : Option (ExecutionStatus × ExecutionStatus) :=
  match marks.targetBefore, marks.targetAfter with
  | some before, some after => some (before, after)
  | _, _ => none

theorem ClosingMarks.span_eq_none {marks : ClosingMarks} (h : ∀ before after, marks.targetBefore = some before →
    marks.targetAfter = some after → False) : marks.span = none := by
  rcases hbefore : marks.targetBefore with _ | before
  · rw [span, hbefore]
  rcases hafter : marks.targetAfter with _ | after
  · rw [span, hbefore, hafter]
  · exact absurd hafter (h before after hbefore)

/-- The participant's progress and status before and after, if those of the closed record were kept as well. -/
def ClosingMarks.standings (marks : ClosingMarks) :
    Option ((UInt8 × ParticipantStatus) × (UInt8 × ParticipantStatus)) :=
  match marks.span, marks.progressBefore, marks.participantBefore, marks.progressAfter, marks.participantAfter with
  | some _, some progress, some status, some progress', some status' => some ((progress, status), (progress', status'))
  | _, _, _, _, _ => none

theorem ClosingMarks.standings_eq_none_of_span {marks : ClosingMarks} (h : marks.span = none) :
    marks.standings = none := by
  rw [standings, h]

theorem ClosingMarks.standings_eq_none {marks : ClosingMarks} (h : ∀ progress status progress' status',
    marks.progressBefore = some progress → marks.participantBefore = some status →
    marks.progressAfter = some progress' → marks.participantAfter = some status' → False) :
    marks.standings = none := by
  rw [standings]
  split
  · next hprogress hstatus hprogress' hstatus' => exact (h _ _ _ _ hprogress hstatus hprogress' hstatus').elim
  · rfl

structure UndoneAlike (ctx ctx' : Context) : Prop where
  same : ctx' = { ctx with
    execution := ctx'.execution, participant := ctx'.participant, progress := ctx'.progress
    pinned := ctx'.pinned, levelAfter := ctx'.levelAfter }
  execution : ctx'.execution.map (·.id) = ctx.execution.map (·.id)
  pinned : ctx'.pinned.map (·.id) = ctx.pinned.map (·.id)

namespace UndoneAlike

variable {ctx ctx' ctx'' : Context}

theorem refl (ctx : Context) : ctx.UndoneAlike ctx := ⟨rfl, rfl, rfl⟩

theorem trans (h : ctx.UndoneAlike ctx') (h' : ctx'.UndoneAlike ctx'') : ctx.UndoneAlike ctx'' where
  same := h'.same.trans (by rw [h.same])
  execution := h'.execution.trans h.execution
  pinned := h'.pinned.trans h.pinned

theorem withLevelAfter (ctx : Context) (level : UInt32) : ctx.UndoneAlike (ctx.withLevelAfter level) := ⟨rfl, rfl, rfl⟩

theorem withParticipant (ctx : Context) (p : Participant) : ctx.UndoneAlike (ctx.withParticipant p) := ⟨rfl, rfl, rfl⟩

theorem withExecutionStatus (ctx : Context) (status : ExecutionStatus) :
    ctx.UndoneAlike (ctx.withExecutionStatus status) := by
  refine ⟨rfl, ?_, rfl⟩
  rw [Context.withExecutionStatus, Option.map_map]
  rfl

theorem withInstanceStatus (ctx : Context) (status : ExecutionStatus) : ctx.UndoneAlike
    (ctx.withInstanceStatus status) := by
  refine ⟨rfl, rfl, ?_⟩
  rw [Context.withInstanceStatus, Option.map_map]
  rfl

theorem exists_execution (h : ctx.UndoneAlike ctx') {x : Execution} (hx : ctx.execution = some x) :
    ∃ x', ctx'.execution = some x' ∧ x'.id = x.id := by
  have hid : ctx'.execution.map (·.id) = some x.id := by rw [h.execution, hx, Option.map_some]
  exact Option.map_eq_some_iff.1 hid

theorem exists_pinned (h : ctx.UndoneAlike ctx') {i : Instance} (hi : ctx.pinned = some i) :
    ∃ i', ctx'.pinned = some i' ∧ i'.id = i.id := by
  have hid : ctx'.pinned.map (·.id) = some i.id := by rw [h.pinned, hi, Option.map_some]
  exact Option.map_eq_some_iff.1 hid

theorem request (h : ctx.UndoneAlike ctx') : ctx'.request = ctx.request := (congrArg Context.request h.same :)

theorem mission (h : ctx.UndoneAlike ctx') : ctx'.mission = ctx.mission := (congrArg Context.mission h.same :)

theorem guild (h : ctx.UndoneAlike ctx') : ctx'.guild = ctx.guild := (congrArg Context.guild h.same :)

theorem reward (h : ctx.UndoneAlike ctx') : ctx'.reward = ctx.reward := (congrArg Context.reward h.same :)

theorem guildReward (h : ctx.UndoneAlike ctx') : ctx'.guildReward = ctx.guildReward :=
    (congrArg Context.guildReward h.same :)

theorem closing (h : ctx.UndoneAlike ctx') : ctx'.closing = ctx.closing := (congrArg Context.closing h.same :)

theorem grantOf (h : ctx.UndoneAlike ctx') : UserReward.grantOf ctx' = UserReward.grantOf ctx := by
  have htitle : ctx'.title = ctx.title := (congrArg Context.title h.same :)
  have hcategory : ctx'.category = ctx.category := (congrArg Context.category h.same :)
  have hname : ctx'.categoryName = ctx.categoryName := (congrArg Context.categoryName h.same :)
  funext amount
  simp only [UserReward.grantOf, h.request, h.execution, htitle, hcategory, hname]

end UndoneAlike

end Context

/-! ### Totals -/

section

variable {κ : Type} [Ord κ] [Std.TransOrd κ] [Std.LawfulEqOrd κ]

def Guard.ofTotal (marks : Context.RewardMarks) (totals : Table κ Int) (key : κ) (resource : String)
    (subtract : Int → Call) : Guard Int Int (Table κ Int) where
  marks := marks.span
  stored := .ok ((totals.get? key).getD 0)
  value := id
  store := totals
  restored total _ := totals.insert key (total - marks.granted.getD 0)
  write _ _ := subtract (marks.granted.getD 0)
  conflict total after := .concurrentModification resource (toString after) (toString total)

variable {marks : Context.RewardMarks} {totals : Table κ Int} {key : κ} {resource : String} {subtract : Int → Call}

theorem Guard.Moved.total {total before after : Int}
    (h : (ofTotal marks totals key resource subtract).Moved total before after) : ∃ amount,
      marks = ⟨some before, some after, some amount⟩ ∧ total = after ∧
        (ofTotal marks totals key resource subtract).settle =
          ⟨none, [subtract amount], totals.insert key (after - amount)⟩ := by
  obtain ⟨amount, rfl⟩ := Context.RewardMarks.span_eq_some.1 h.marks
  obtain rfl : total = after := h.value
  exact ⟨amount, rfl, rfl, h.settle⟩

theorem Guard.ofTotal_again (hexact : marks.Exact) :
    (ofTotal marks (ofTotal marks totals key resource subtract).settle.store key resource subtract).settle =
      (ofTotal marks totals key resource subtract).settle.quiet := by
  refine settle_again rfl rfl (fun hkept => by rw [hkept]; rfl) fun total before after h => ?_
  obtain ⟨amount, hmarks, rfl, hsettle⟩ := h.total
  refine ⟨total - amount, ?_, ?_⟩
  · rw [hsettle]
    simp [ofTotal]
  · have hbefore := hexact before total amount hmarks
    dsimp only [ofTotal, id]
    omega

/-- The next compensation leaves the total as this one did, even if the amount is not all that lay between. -/
theorem Guard.store_ofTotal_again :
    (ofTotal marks (ofTotal marks totals key resource subtract).settle.store key resource subtract).settle.store =
      (ofTotal marks totals key resource subtract).settle.store := by
  rcases (ofTotal marks (ofTotal marks totals key resource subtract).settle.store key resource subtract).settle_cases
    with ⟨failure, hsettle⟩ | ⟨total', before', after', h'⟩
  · rw [hsettle]
    rfl
  rcases (ofTotal marks totals key resource subtract).settle_cases with ⟨failure, hsettle⟩ | ⟨total, before, after, h⟩
  · rw [hsettle, show (ofTotal marks totals key resource subtract).store = totals from rfl, hsettle]
    rfl
  · -- the total is once more what the step had left, so nothing was subtracted
    obtain ⟨amount, rfl, rfl, hsettle⟩ := h.total
    obtain ⟨amount', hmarks', rfl, hsettle'⟩ := h'.total
    obtain ⟨rfl, rfl, rfl⟩ : before = before' ∧ total = total' ∧ amount = amount' := by simpa using hmarks'
    have hnothing : total - amount = total := by
      have hstored := h'.stored
      rw [hsettle] at hstored
      simpa [ofTotal] using hstored
    rw [hsettle', hsettle, hnothing, Table.insert_insert]

end

namespace UserReward

def guard (ctx : Context) (books : Books) : Guard Int Int (Table String Int) :=
  .ofTotal ctx.reward books.userTotals ctx.request.user ("experience of user '" ++ ctx.request.user ++ "'")
    fun amount => .subtractExperience (grantOf ctx amount)

end UserReward

namespace GuildReward

def guard (guild mission : Int) (ctx : Context) (books : Books) : Guard Int Int (Table Int Int) :=
  .ofTotal ctx.guildReward books.guildTotals guild ("experience of guild " ++ toString guild) fun amount =>
    .subtractGuildExperience guild amount ⟨ctx.request.user, mission⟩

end GuildReward

/-! ### Records -/

def Guard.found {R : Type} (record : Option R) (otherwise : CompletionError) : Except CompletionError R :=
  match record with
  | some r => .ok r
  | none => .error otherwise

theorem Guard.found_eq_ok {R : Type} {record : Option R} {otherwise : CompletionError} {r : R} :
    found record otherwise = .ok r ↔ record = some r := by
  cases record <;> simp [found]

theorem Guard.found_eq_error {R : Type} {record : Option R} {otherwise e : CompletionError}
    (h : found record otherwise = .error e) : e = otherwise := by
  cases record <;> cases h
  rfl

def Guard.ofStatus {R : Type} (marks : Context.ClosingMarks) (records : Table Int R) (id : Int) (entity : String)
    (status : R → ExecutionStatus) (put : R → ExecutionStatus → R) (save : R → Call) :
    Guard R ExecutionStatus (Table Int R) where
  marks := marks.span
  stored := found (records.get? id) (.notFound entity (toString id))
  value := status
  store := records
  restored r before := records.insert id (put r before)
  write r before := save (put r before)
  conflict r after := .concurrentModification ("status of " ++ entity ++ " " ++ toString id) after.name (status r).name

theorem Guard.ofStatus_again {R : Type} {marks : Context.ClosingMarks} {records : Table Int R} {id : Int}
    {entity : String} {status : R → ExecutionStatus} {put : R → ExecutionStatus → R} {save : R → Call}
    (hput : ∀ r before, status (put r before) = before) :
    (ofStatus marks (ofStatus marks records id entity status put save).settle.store id entity status put save).settle =
      (ofStatus marks records id entity status put save).settle.quiet := by
  refine settle_again rfl rfl (fun hkept => by rw [hkept]; rfl) fun r before after h => ?_
  refine ⟨put r before, ?_, hput r before⟩
  rw [h.settle]
  simp [ofStatus, found]

def Closing.guard (id : Int) (ctx : Context) (books : Books) : Guard Instance ExecutionStatus (Table Int Instance) :=
  .ofStatus ctx.closing books.instances id "mission instance" (·.status) (fun i status => { i with status })
    .saveInstance

namespace Advance

def executionGuard (id : Int) (ctx : Context) (books : Books) :
    Guard Execution ExecutionStatus (Table Int Execution) :=
  .ofStatus ctx.closing books.executions id "execution" (·.status) (fun x status => { x with status }) .saveExecution

def participantGuard (mission : Int) (ctx : Context) (books : Books) :
    Guard Participant (UInt8 × ParticipantStatus) (Table Int Participant) where
  marks := ctx.closing.standings
  stored := Guard.found (books.participantOf mission ctx.request.user) (.notParticipant mission ctx.request.user)
  value p := (p.progress, p.status)
  store := books.participants
  restored p before := books.participants.insert p.id { p with progress := before.1, status := before.2 }
  write p before := .saveParticipant { p with progress := before.1, status := before.2 }
  conflict p after := .concurrentModification ("progress of participant " ++ toString p.id)
    (standing after.1 after.2) (standing p.progress p.status)

end Advance

end Missions
