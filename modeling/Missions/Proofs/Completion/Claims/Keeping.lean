import Missions.Proofs.Completion.Claims.Standing
import Missions.Proofs.Completion.Footprint

namespace Missions

/-- What a run's course and its standing go by: the request, whether a guild is rewarded, the record that was loaded,
and the mark of its closing. -/
def Context.stance (ctx : Context) : Request × Bool × Option Target × Option ExecutionStatus :=
  (ctx.request, ctx.isGuildMission, ctx.target, ctx.kept Snapshot.targetAfter)

theorem Context.stance_eq_iff {ctx ctx' : Context} : ctx'.stance = ctx.stance ↔ ctx'.request = ctx.request ∧
    ctx'.isGuildMission = ctx.isGuildMission ∧ ctx'.target = ctx.target ∧
      ctx'.kept Snapshot.targetAfter = ctx.kept Snapshot.targetAfter := by
  simp only [stance, Prod.mk.injEq]

theorem Context.target_of_execution {ctx : Context} (hregular : ctx.request.pinned = false) {x : Execution}
    (hx : ctx.execution = some x) : ctx.target = some (.execution x.id) := by
  simp [target, hregular, hx]

theorem Context.target_of_pinned {ctx : Context} (hpinned : ctx.request.pinned = true) {i : Instance}
    (hi : ctx.pinned = some i) : ctx.target = some (.pinned i.id) := by
  simp [target, hpinned, hi]

section

variable (ctx : Context)

@[simp] theorem Context.target_withExecutionStatus (status : ExecutionStatus) :
    (ctx.withExecutionStatus status).target = ctx.target := by
  simp only [target, withExecutionStatus, Option.map_map]
  rfl

@[simp] theorem Context.target_withInstanceStatus (status : ExecutionStatus) :
    (ctx.withInstanceStatus status).target = ctx.target := by
  simp only [target, withInstanceStatus, Option.map_map]
  rfl

end

theorem Context.stance_withExecutionStatus (ctx : Context) (status : ExecutionStatus) :
    (ctx.withExecutionStatus status).stance = ctx.stance :=
  stance_eq_iff.2 ⟨rfl, rfl, ctx.target_withExecutionStatus status, rfl⟩

theorem Context.stance_withInstanceStatus (ctx : Context) (status : ExecutionStatus) :
    (ctx.withInstanceStatus status).stance = ctx.stance :=
  stance_eq_iff.2 ⟨rfl, rfl, ctx.target_withInstanceStatus status, rfl⟩

theorem Context.MarkedOnly.stance {names : List String} {ctx ctx' : Context} (h : ctx.MarkedOnly names ctx')
    (hnames : Snapshot.targetAfter.name ∉ names) : ctx'.stance = ctx.stance := by
  refine Context.stance_eq_iff.2 ⟨?_, ?_, ?_, h.kept _ hnames⟩
  · exact congrArg Brief.request h.brief
  · exact congrArg Brief.isGuildMission h.brief
  · have hrequest : ctx'.request = ctx.request := congrArg Brief.request h.brief
    have hexecution : ctx'.execution = ctx.execution := congrArg Records.execution h.records
    have hpinned : ctx'.pinned = ctx.pinned := congrArg Records.pinned h.records
    rw [target, hrequest, hexecution, hpinned, target]

namespace Procedure

open Standing

/-- A condition under which a run may make quiet calls, and which depends on the context's stance only. -/
structure Settles (K : Context → Standing → Prop) : Prop where
  fair : ∀ ctx g, K ctx g → g.Fair ctx
  stance : ∀ ctx ctx' g, ctx'.stance = ctx.stance → K ctx g → K ctx' g

namespace Settles

variable {K : Context → Standing → Prop} {methods : Method → Bool}

theorem guild (hK : Settles K) (isGuildMission : Bool) :
    Settles fun ctx g => K ctx g ∧ ctx.isGuildMission = isGuildMission where
  fair ctx g h := hK.fair ctx g h.1
  stance ctx ctx' g hstance h :=
    ⟨hK.stance ctx ctx' g hstance h.1, (Context.stance_eq_iff.1 hstance).2.1.trans h.2⟩

theorem call (hK : Settles K) {ctx : Context} {g : Standing} {c : Call} (h : K ctx g) (hc : Quiet c) :
    protocol.allowed ctx g c ∧ ∀ answer g', protocol.answered ctx g c answer g' → K ctx g' := by
  refine ⟨⟨hK.fair ctx g h, fun t ht => ?_, fun t ht => ?_⟩, fun answer g' hanswer => ?_⟩
  · simp [hc.1] at ht
  · simp [hc.2] at ht
  · rw [hanswer.2, after_of_quiet hc]
    exact h

theorem tolerates (hK : Settles K) {names : List String} (hmethods : ∀ c : Call, methods c.method = true → Quiet c)
    (hnames : Snapshot.targetAfter.name ∉ names) : Tolerates protocol K methods (Context.MarkedOnly names) where
  call h hc := hK.call h (hmethods _ hc)
  change {ctx ctx' g} h hmarked := hK.stance ctx ctx' g (hmarked.stance hnames) h

theorem modify (hK : Settles K) {f : Context → Context} (hf : ∀ ctx, (f ctx).stance = ctx.stance) :
    Preserves protocol K (modify f : Procedure Unit) := fun ctx g h => hK.stance ctx (f ctx) g (hf ctx) h

theorem keep (hK : Settles K) {t : SnapshotType} {key : SnapshotKey t}
    (hkey : Snapshot.targetAfter.name ≠ key.name) (v : t.Value) : Preserves protocol K (Procedure.keep key v) := by
  refine hK.modify fun ctx => ?_
  rw [Context.stance, Context.kept_keep_of_ne _ hkey]
  rfl

theorem userReward (hK : Settles K) :
    Tolerates protocol K UserReward.methods (Context.MarkedOnly UserReward.marks) :=
  hK.tolerates (fun c hc => by cases c <;> first | exact ⟨rfl, rfl⟩ | cases hc) (by decide)

theorem progress (hK : Settles K) : Tolerates protocol K Advance.progressMethods (Context.MarkedOnly []) :=
  hK.tolerates (fun c hc => by cases c <;> first | exact ⟨rfl, rfl⟩ | cases hc) (by decide)

theorem guildReward (hK : Settles K) :
    Tolerates protocol K GuildReward.methods (Context.MarkedOnly GuildReward.marks) :=
  hK.tolerates (fun c hc => by cases c <;> first | exact ⟨rfl, rfl⟩ | cases hc) (by decide)

theorem sharing (hK : Settles K) : Tolerates protocol K Sharing.methods (Context.MarkedOnly []) :=
  hK.tolerates (fun c hc => by cases c <;> first | exact ⟨rfl, rfl⟩ | cases hc) (by decide)

end Settles

end Procedure

end Missions
