import Missions.Proofs.Completion.Facets
import Missions.Proofs.Completion.Outcome
import Missions.Proofs.Completion.Stages

/-! A completion knows its request and the records that it has been told of, it names no others in its calls, and what
it writes of a record is its status or progress. -/

namespace Missions

namespace Procedure

variable {G α β : Type} {P : Protocol Context G} {K : Context → G → Prop} {may : CompletionError → Prop}
variable {T : α → Prop} {T' : β → Prop}

def Came (may : CompletionError → Prop) (T : α → Prop) : Except CompletionError α → Prop
  | .ok a => T a
  | .error e => may e

/-- The procedure leaves what holds as it is, and comes to a value as `T` says or fails with an error of the kind
`may`. -/
def Yields (P : Protocol Context G) (K : Context → G → Prop) (may : CompletionError → Prop) (T : α → Prop)
    (p : Procedure α) : Prop :=
  ∀ ctx g, K ctx g → p.Meets P (fun r ctx g => Came may T r ∧ K ctx g) ctx g

theorem yields_pure {a : α} (h : T a) : Yields P K may T (pure a) := fun _ _ hK => ⟨h, hK⟩

theorem yields_throw {e : CompletionError} (h : may e) : Yields P K may T (throw e) := fun _ _ hK => ⟨h, hK⟩

theorem yields_get : Yields P K may (fun ctx => ∃ g, K ctx g) get := fun _ g hK => ⟨⟨g, hK⟩, hK⟩

theorem yields_modify {f : Context → Context} (hf : ∀ ctx g, K ctx g → K (f ctx) g) :
    Yields P K may (fun _ => True) (modify f) := fun ctx g hK => ⟨trivial, hf ctx g hK⟩

theorem yields_require {found : Option α} {e : CompletionError} (hnone : found = none → may e)
    (hsome : ∀ a, found = some a → T a) : Yields P K may T (require found e) := by
  cases found with
  | none => exact yields_throw (hnone rfl)
  | some a => exact yields_pure (hsome a rfl)

theorem yields_check {holds : Bool} {e : CompletionError} (hfails : may e) :
    Yields P K may (fun _ => True) (check holds e) := by
  cases holds with
  | false => exact yields_throw hfails
  | true => exact yields_pure trivial

theorem Yields.meets_bind {p : Procedure α} {f : α → Procedure β} {Q : Except CompletionError β → Context → G → Prop}
    {ctx : Context} {g : G} (hp : Yields P K may T p) (h : K ctx g)
    (herror : ∀ e ctx g, may e → K ctx g → Q (.error e) ctx g)
    (hf : ∀ a ctx g, T a → K ctx g → (f a).Meets P Q ctx g) : (p >>= f).Meets P Q ctx g := by
  rw [Procedure.meets_bind]
  refine (hp ctx g h).mono fun r ctx g ⟨hr, h⟩ => ?_
  cases r with
  | ok a => exact hf a ctx g hr h
  | error e => exact herror e ctx g hr h

theorem Yields.bind {p : Procedure α} {f : α → Procedure β} (hp : Yields P K may T p)
    (hf : ∀ a, T a → Yields P K may T' (f a)) : Yields P K may T' (p >>= f) := fun _ _ h =>
  hp.meets_bind h (fun _ _ _ he h => ⟨he, h⟩) fun a ctx g ha h => hf a ha ctx g h

theorem Yields.outcome {p : Procedure α} (hp : Yields P K may T p) {may' : CompletionError → Prop} :
    Yields P K may' (Came may T) (outcome p) := fun ctx g h => meets_outcome.2 (hp ctx g h)

theorem Yields.ite {p q : Procedure α} {holds : Prop} [Decidable holds] (hp : Yields P K may T p)
    (hq : Yields P K may T q) : Yields P K may T (if holds then p else q) := by
  split
  · exact hp
  · exact hq

theorem Yields.settle {doing : String} {rejects : CompletionError → Bool} {body : Procedure Success}
    {T : Success → Prop} (hbody : Yields P K may T body) {ctx : Context} {g : G} (h : K ctx g) :
    ((settle doing rejects body).run ctx).Obeys P (fun r g => (∀ e, r.1.cause = some e → may e) ∧ K r.2 g) g := by
  refine obeys_settle.2 ((hbody ctx g h).mono fun r ctx g ⟨hr, h⟩ => ?_)
  cases r with
  | ok success => exact ⟨nofun, h⟩
  | error e =>
    refine ⟨fun e' he' => ?_, h⟩
    obtain rfl : e = e' := by
      dsimp only at he'
      split at he' <;> exact Option.some.inj he'
    exact hr

end Procedure

open Procedure

/-- What is known of records, and the errors that may come. Records are known in whatever status and progress, and no
error is ruled out but that of a context that lacks something. -/
structure Knowledge where
  mission : Mission → Prop
  participant : Participant → Prop
  execution : Execution → Prop
  pinned : Instance → Prop
  error : CompletionError → Prop
  participant_with : ∀ p status progress, participant p → participant { p with status, progress }
  execution_with : ∀ x status, execution x → execution { x with status }
  pinned_with : ∀ i status, pinned i → pinned { i with status }
  error_other : ∀ e, (∀ what, e ≠ .missingContext what) → error e

namespace Knowledge

/-- The call concerns the requesting user, a known record, or what is shared. -/
def Allows (k : Knowledge) (r : Request) : Call → Prop
  | .currentExperience user => user = r.user
  | .grantExperience grant | .subtractExperience grant => grant.user = r.user
  | .guildExperience guild | .addGuildExperience guild _ _ | .subtractGuildExperience guild _ _ =>
    ∃ m, k.mission m ∧ m.guild = some guild
  | .createFeed _ | .deleteFeed _ | .setShared .. => True
  | .findMission id => r.pinned = false ∧ id = r.target ∨ ∃ i, k.pinned i ∧ i.mission = id
  | .findParticipant mission user => r.pinned = false ∧ user = r.user ∧ ∃ m, k.mission m ∧ m.id = mission
  | .saveParticipant p => k.participant p
  | .findExecutionInProgress participant | .countExecutions participant _ => ∃ p, k.participant p ∧ p.id = participant
  | .findExecution id | .completeExecution id => ∃ x, k.execution x ∧ x.id = id
  | .saveExecution x => k.execution x
  | .findInstance id => r.pinned = true ∧ id = r.target ∨ ∃ i, k.pinned i ∧ i.id = id
  | .completeInstance id => ∃ i, k.pinned i ∧ i.id = id
  | .saveInstance i => k.pinned i

/-- The records in an answer are known from then on. -/
def Tells (k : Knowledge) : (c : Call) → c.Answer → Prop
  | .findMission _, found => ∀ m, found = some m → k.mission m
  | .findParticipant .., found => ∀ p, found = some p → k.participant p
  | .findExecution _, found | .findExecutionInProgress _, found => ∀ x, found = some x → k.execution x
  | .findInstance _, found => ∀ i, found = some i → k.pinned i
  | _, _ => True

def protocol (k : Knowledge) (r : Request) : Protocol Context Unit where
  allowed _ _ c := k.Allows r c
  answered _ _ c answer _ := Came k.error (k.Tells c) answer

/-- The context of a request after loading: it shows the mission, and the records of the request are there and known. -/
structure Loaded (k : Knowledge) (r : Request) (m : Mission) (ctx : Context) : Prop where
  brief : ctx.brief = .of r m
  participant : r.pinned = false → ∃ p, ctx.participant = some p ∧ k.participant p
  execution : r.pinned = false → ∃ x, ctx.execution = some x ∧ k.execution x
  pinned : r.pinned = true → ∃ i, ctx.pinned = some i ∧ k.pinned i

variable {k : Knowledge} {r : Request} {m : Mission} {K : Context → Unit → Prop}

theorem yields_ask {c : Call} (h : k.Allows r c) : Yields (k.protocol r) K k.error (k.Tells c) (ask c) :=
  fun _ _ hK => meets_ask.2 ⟨h, fun _ _ hanswer => ⟨hanswer, hK⟩⟩

theorem yields_query {c : Call} (h : k.Allows r c) {may : CompletionError → Prop} :
    Yields (k.protocol r) K may (Came k.error (k.Tells c)) (query c) :=
  fun _ _ hK => meets_query.2 ⟨h, fun _ _ hanswer => ⟨hanswer, hK⟩⟩

/-! ### Loaded contexts -/

namespace Loaded

variable {ctx : Context}

theorem request (h : k.Loaded r m ctx) : ctx.request = r := congrArg Context.Brief.request h.brief

theorem mission (h : k.Loaded r m ctx) : ctx.mission = some m := congrArg Context.Brief.mission h.brief

theorem guild (h : k.Loaded r m ctx) : ctx.guild = m.guild := congrArg Context.Brief.guild h.brief

theorem missionId (h : k.Loaded r m ctx) : ctx.missionId = some m.id := by rw [Context.missionId, h.mission]; rfl

theorem target (h : k.Loaded r m ctx) : ctx.target ≠ none := by
  rw [Context.target, h.request]
  cases hpinned : r.pinned with
  | false =>
    obtain ⟨x, hx, -⟩ := h.execution hpinned
    simp [hx]
  | true =>
    obtain ⟨i, hi, -⟩ := h.pinned hpinned
    simp [hi]

theorem keep (h : k.Loaded r m ctx) {t : SnapshotType} (key : SnapshotKey t) (v : t.Value) :
    k.Loaded r m (ctx.keep key v) := ⟨h.brief, h.participant, h.execution, h.pinned⟩

theorem withParticipant (h : k.Loaded r m ctx) {p : Participant} (hp : k.participant p) :
    k.Loaded r m (ctx.withParticipant p) := ⟨h.brief, fun _ => ⟨p, rfl, hp⟩, h.execution, h.pinned⟩

theorem withExecutionStatus (h : k.Loaded r m ctx) (status : ExecutionStatus) :
    k.Loaded r m (ctx.withExecutionStatus status) := by
  refine ⟨h.brief, h.participant, fun hregular => ?_, h.pinned⟩
  obtain ⟨x, hx, hknown⟩ := h.execution hregular
  exact ⟨{ x with status }, by rw [Context.withExecutionStatus, hx]; rfl, k.execution_with x status hknown⟩

theorem withInstanceStatus (h : k.Loaded r m ctx) (status : ExecutionStatus) :
    k.Loaded r m (ctx.withInstanceStatus status) := by
  refine ⟨h.brief, h.participant, h.execution, fun hpinned => ?_⟩
  obtain ⟨i, hi, hknown⟩ := h.pinned hpinned
  exact ⟨{ i with status }, by rw [Context.withInstanceStatus, hi]; rfl, k.pinned_with i status hknown⟩

end Loaded

end Knowledge

open Knowledge

variable {k : Knowledge} {r : Request} {m : Mission} {K : Context → Unit → Prop}

/-! ### Loading -/

namespace Loading

/-- How loading ends: with a loaded context, or with an error and the context as it was. -/
def Informs (k : Knowledge) (r : Request) (result : Except CompletionError Success) (ctx : Context) (_ : Unit) : Prop :=
  match result with
  | .ok _ => ∃ m, k.mission m ∧ k.Loaded r m ctx
  | .error e => k.error e ∧ ctx = .start r

theorem yields_findMission {id : Int} (h : k.Allows r (.findMission id)) :
    Yields (k.protocol r) K k.error k.mission (findMission id) := by
  refine .bind (yields_ask h) fun _ hfound => ?_
  exact yields_require (fun _ => k.error_other _ nofun) hfound

theorem meets_bind_informs {α : Type} {T : α → Prop} {p : Procedure α} {f : α → Procedure Success}
    (hp : Yields (k.protocol r) (fun ctx _ => ctx = .start r) k.error T p)
    (hf : ∀ a, T a → (f a).Meets (k.protocol r) (Informs k r) (.start r) ()) :
    (p >>= f).Meets (k.protocol r) (Informs k r) (.start r) () :=
  hp.meets_bind rfl (fun _ _ _ he h => ⟨he, h⟩) fun a _ _ ha h => h ▸ hf a ha

theorem meets_loadExecution_known (hregular : r.pinned = false) :
    loadExecution.Meets (k.protocol r) (Informs k r) (.start r) () := by
  have hother {e : CompletionError} (he : ∀ what, e ≠ .missingContext what) : k.error e := k.error_other e he
  refine meets_bind.2 (meets_get.2 ?_)
  refine meets_bind_informs (yields_findMission (.inl ⟨hregular, rfl⟩)) fun mission hmission => ?_
  refine meets_bind_informs (yields_ask ⟨hregular, rfl, mission, hmission, rfl⟩) fun found hfound => ?_
  refine meets_bind_informs (yields_require (fun _ => hother nofun) hfound) fun participant hparticipant => ?_
  refine meets_bind_informs (yields_check (hother nofun)) fun _ _ => ?_
  refine meets_bind_informs (yields_ask ⟨participant, hparticipant, rfl⟩) fun found hfound => ?_
  refine meets_bind_informs (yields_require (fun _ => hother nofun) hfound) fun execution hexecution => ?_
  refine meets_bind_informs (yields_check (hother nofun)) fun _ _ => ?_
  refine meets_bind_informs (yields_check (hother nofun)) fun _ _ => ?_
  exact ⟨mission, hmission, rfl, fun _ => ⟨participant, rfl, hparticipant⟩, fun _ => ⟨execution, rfl, hexecution⟩,
    fun hpinned => absurd (hregular.symm.trans hpinned) nofun⟩

theorem meets_loadInstance_known (hpinned : r.pinned = true) :
    loadInstance.Meets (k.protocol r) (Informs k r) (.start r) () := by
  have hother {e : CompletionError} (he : ∀ what, e ≠ .missingContext what) : k.error e := k.error_other e he
  refine meets_bind.2 (meets_get.2 ?_)
  refine meets_bind_informs (yields_ask (.inl ⟨hpinned, rfl⟩)) fun found hfound => ?_
  refine meets_bind_informs (yields_require (fun _ => hother nofun) hfound) fun pinned hinstance => ?_
  refine meets_bind_informs (yields_check (hother nofun)) fun _ _ => ?_
  refine meets_bind_informs (yields_check (hother nofun)) fun _ _ => ?_
  refine meets_bind_informs (yields_findMission (.inr ⟨pinned, hinstance, rfl⟩)) fun mission hmission => ?_
  exact ⟨mission, hmission, rfl, fun hregular => absurd (hpinned.symm.trans hregular) nofun,
    fun hregular => absurd (hpinned.symm.trans hregular) nofun, fun _ => ⟨pinned, rfl, hinstance⟩⟩

theorem meets_load_known : load.Meets (k.protocol r) (Informs k r) (.start r) () := by
  refine meets_bind.2 (meets_get.2 ?_)
  cases hpinned : r.pinned with
  | false => simpa [Context.start, hpinned] using meets_loadExecution_known hpinned
  | true => simpa [Context.start, hpinned] using meets_loadInstance_known hpinned

end Loading

/-! ### The later steps -/

theorem Knowledge.yields_keep {t : SnapshotType} {key : SnapshotKey t} {v : t.Value} :
    Yields (k.protocol r) (fun ctx _ => k.Loaded r m ctx) k.error (fun _ => True) (keep key v) :=
  yields_modify fun _ _ h => h.keep key v

namespace UserReward

theorem yields_grant : Yields (k.protocol r) (fun ctx _ => k.Loaded r m ctx) k.error (fun _ => True) grant := by
  refine .bind yields_get fun ctx ⟨_, hctx⟩ => ?_
  refine .ite (yields_pure trivial) ?_
  have huser : ctx.request.user = r.user := by rw [hctx.request]
  refine .bind (yields_ask huser) fun before _ => ?_
  refine .bind yields_keep fun _ _ => ?_
  refine .bind yields_keep fun _ _ => ?_
  refine .bind (yields_modify fun ctx _ h => ⟨h.brief, h.participant, h.execution, h.pinned⟩) fun _ _ => ?_
  refine .bind (yields_ask huser) fun after _ => ?_
  refine .bind yields_keep fun _ _ => ?_
  refine .bind yields_keep fun _ _ => ?_
  refine .bind (yields_modify fun ctx _ h => ⟨h.brief, h.participant, h.execution, h.pinned⟩) fun _ _ => ?_
  exact yields_pure trivial

theorem yields_revert : Yields (k.protocol r) (fun ctx _ => k.Loaded r m ctx) k.error (fun _ => True) revert := by
  refine .bind yields_get fun ctx ⟨_, hctx⟩ => ?_
  have huser : ctx.request.user = r.user := by rw [hctx.request]
  split
  · refine .bind (yields_ask huser) fun current _ => ?_
    refine .ite (yields_pure trivial) ?_
    refine .ite (yields_throw (k.error_other _ nofun)) ?_
    refine .bind (yields_ask huser) fun restored _ => ?_
    refine .bind (yields_modify fun ctx _ h => ⟨h.brief, h.participant, h.execution, h.pinned⟩) fun _ _ => ?_
    exact yields_pure trivial
  · exact yields_pure trivial

end UserReward

namespace Advance

theorem yields_recordProgress {p : Participant} (hp : k.participant p) (total : UInt32) :
    Yields (k.protocol r) K k.error k.participant (recordProgress p total) := by
  refine .bind (yields_ask ⟨p, hp, rfl⟩) fun completed _ => ?_
  have hupdated := k.participant_with p (if progressPercent completed total ≥ 100 then .completed else p.status)
    (progressPercent completed total) hp
  refine .bind (yields_ask hupdated) fun _ _ => ?_
  exact yields_pure hupdated

theorem yields_release {x : Execution} (hx : k.execution x) {cause : CompletionError} (hcause : k.error cause) :
    Yields (k.protocol r) K k.error k.error (release x cause) := by
  have hreleased := k.execution_with x .inProgress hx
  refine .bind (yields_query (c := .saveExecution { x with status := .inProgress }) hreleased) fun saved _ => ?_
  cases saved with
  | ok => exact yields_pure hcause
  | error e => exact yields_pure (k.error_other _ nofun)

theorem yields_update (hregular : r.pinned = false) :
    Yields (k.protocol r) (fun ctx _ => k.Loaded r m ctx) k.error (fun _ => True) update := by
  refine .bind yields_get fun ctx ⟨_, hctx⟩ => ?_
  obtain ⟨x, hx, hexecution⟩ := hctx.execution hregular
  obtain ⟨p, hp, hparticipant⟩ := hctx.participant hregular
  rw [hx, hp, hctx.mission]
  refine .bind (yields_pure hexecution) fun x hx => ?_
  refine .bind (yields_pure hparticipant) fun p hp => ?_
  refine .bind (T := fun _ => True) (yields_pure trivial) fun m _ => ?_
  refine .bind yields_keep fun _ _ => ?_
  refine .bind yields_keep fun _ _ => ?_
  refine .bind yields_keep fun _ _ => ?_
  refine .bind (yields_ask ⟨x, hx, rfl⟩) fun claimed _ => ?_
  refine .bind (yields_check (k.error_other _ nofun)) fun _ _ => ?_
  refine .bind (yields_recordProgress hp _).outcome fun recorded hrecorded => ?_
  cases recorded with
  | error e => exact .bind (yields_release hx hrecorded) fun e he => yields_throw he
  | ok updated =>
    refine .bind yields_keep fun _ _ => ?_
    refine .bind yields_keep fun _ _ => ?_
    refine .bind yields_keep fun _ _ => ?_
    refine .bind (yields_modify fun ctx _ h => (h.withExecutionStatus _).withParticipant hrecorded) fun _ _ => ?_
    exact yields_pure trivial

theorem yields_restoreExecution {x : Execution} (hx : k.execution x) (before after : ExecutionStatus) :
    Yields (k.protocol r) K k.error (fun _ => True) (restoreExecution x.id before after) := by
  refine .bind (yields_ask ⟨x, hx, rfl⟩) fun _ hfound => ?_
  refine .bind (yields_require (fun _ => k.error_other _ nofun) hfound) fun current hcurrent => ?_
  refine .ite (yields_pure trivial) (.ite (yields_throw (k.error_other _ nofun)) ?_)
  refine .bind (yields_ask (k.execution_with current before hcurrent)) fun _ _ => ?_
  exact yields_pure trivial

theorem yields_restoreParticipant (hregular : r.pinned = false) (hm : k.mission m) :
    Yields (k.protocol r) (fun ctx _ => k.Loaded r m ctx) k.error (fun found => ∀ p, found = some p → k.participant p)
      (restoreParticipant m.id) := by
  refine .bind yields_get fun ctx ⟨_, hctx⟩ => ?_
  have huser : ctx.request.user = r.user := by rw [hctx.request]
  split
  · next before status _ _ _ _ _ _ =>
    refine .bind (yields_ask ⟨hregular, huser, m, hm, rfl⟩) fun _ hfound => ?_
    refine .bind (yields_require (fun _ => k.error_other _ nofun) hfound) fun current hcurrent => ?_
    refine .ite (yields_pure fun p hp => Option.some.inj hp ▸ hcurrent) ?_
    refine .ite (yields_throw (k.error_other _ nofun)) ?_
    have hrestored := k.participant_with current status before hcurrent
    refine .bind (yields_ask hrestored) fun _ _ => ?_
    exact yields_pure fun p hp => Option.some.inj hp ▸ hrestored
  · exact yields_pure nofun

theorem yields_revert (hregular : r.pinned = false) (hm : k.mission m) :
    Yields (k.protocol r) (fun ctx _ => k.Loaded r m ctx) k.error (fun _ => True) revert := by
  refine .bind yields_get fun ctx ⟨_, hctx⟩ => ?_
  split
  · obtain ⟨x, hx, hexecution⟩ := hctx.execution hregular
    rw [hx, hctx.mission]
    refine .bind (yields_pure hexecution) fun x hx => ?_
    refine .bind (T := (· = m)) (yields_pure rfl) ?_
    rintro m rfl
    refine .bind (yields_restoreExecution hx _ _).outcome fun executionOutcome _ => ?_
    refine .bind (yields_modify fun ctx _ h => ?_) fun _ _ => ?_
    · split
      · exact h.withExecutionStatus _
      · exact h
    refine .bind (yields_restoreParticipant hregular hm).outcome fun participantOutcome hrestored => ?_
    refine .bind (yields_modify fun ctx _ h => ?_) fun _ _ => ?_
    · split
      · exact h.withParticipant (hrestored _ rfl)
      · exact h
      · exact h
    split <;> first | exact yields_pure trivial | exact yields_throw (k.error_other _ nofun)
  · exact yields_pure trivial

end Advance

namespace Closing

theorem yields_close (hpinned : r.pinned = true) :
    Yields (k.protocol r) (fun ctx _ => k.Loaded r m ctx) k.error (fun _ => True) close := by
  refine .bind yields_get fun ctx ⟨_, hctx⟩ => ?_
  obtain ⟨i, hi, hinstance⟩ := hctx.pinned hpinned
  rw [hi]
  refine .bind (yields_pure hinstance) fun i hi => ?_
  refine .bind yields_keep fun _ _ => ?_
  refine .bind (yields_ask ⟨i, hi, rfl⟩) fun claimed _ => ?_
  refine .bind (yields_check (k.error_other _ nofun)) fun _ _ => ?_
  refine .bind yields_keep fun _ _ => ?_
  refine .bind (yields_modify fun ctx _ h => h.withInstanceStatus _) fun _ _ => ?_
  exact yields_pure trivial

theorem yields_revert (hpinned : r.pinned = true) :
    Yields (k.protocol r) (fun ctx _ => k.Loaded r m ctx) k.error (fun _ => True) revert := by
  refine .bind yields_get fun ctx ⟨_, hctx⟩ => ?_
  split
  · next before after _ _ =>
    obtain ⟨i, hi, hinstance⟩ := hctx.pinned hpinned
    rw [hi]
    refine .bind (yields_pure hinstance) fun i hi => ?_
    refine .bind (yields_ask (.inr ⟨i, hi, rfl⟩)) fun _ hfound => ?_
    refine .bind (yields_require (fun _ => k.error_other _ nofun) hfound) fun current hcurrent => ?_
    refine .ite (yields_pure trivial) (.ite (yields_throw (k.error_other _ nofun)) ?_)
    refine .bind (yields_ask (k.pinned_with current before hcurrent)) fun _ _ => ?_
    refine .bind (yields_modify fun ctx _ h => h.withInstanceStatus _) fun _ _ => ?_
    exact yields_pure trivial
  · exact yields_pure trivial

end Closing

namespace GuildReward

theorem yields_credit :
    Yields (k.protocol r) (fun ctx _ => k.Loaded r m ctx) k.error (fun _ => True) credit := by
  refine .bind yields_get fun ctx ⟨_, hctx⟩ => ?_
  rw [hctx.missionId]
  refine .bind (T := fun _ => True) (yields_pure trivial) fun _ _ => ?_
  exact yields_pure trivial

theorem yields_grant (hm : k.mission m) (hguild : m.isGuildMission = true) :
    Yields (k.protocol r) (fun ctx _ => k.Loaded r m ctx) k.error (fun _ => True) grant := by
  refine .bind yields_get fun ctx ⟨_, hctx⟩ => ?_
  obtain ⟨guild, hmine⟩ := Option.isSome_iff_exists.1 hguild
  rw [hctx.guild, hmine]
  refine .bind (T := (· = guild)) (yields_pure rfl) ?_
  rintro guild rfl
  refine .ite (yields_pure trivial) ?_
  refine .bind yields_credit fun source _ => ?_
  refine .bind (yields_ask ⟨m, hm, hmine⟩) fun before _ => ?_
  refine .bind yields_keep fun _ _ => ?_
  refine .bind yields_keep fun _ _ => ?_
  refine .bind (yields_ask ⟨m, hm, hmine⟩) fun after _ => ?_
  refine .bind yields_keep fun _ _ => ?_
  refine .bind yields_keep fun _ _ => ?_
  exact yields_pure trivial

theorem yields_revert (hm : k.mission m) :
    Yields (k.protocol r) (fun ctx _ => k.Loaded r m ctx) k.error (fun _ => True) revert := by
  refine .bind yields_get fun ctx ⟨_, hctx⟩ => ?_
  split
  · next guild _ _ _ hguild _ _ _ =>
    have hmine : m.guild = some guild := hctx.guild.symm.trans hguild
    refine .bind (yields_ask ⟨m, hm, hmine⟩) fun current _ => ?_
    refine .ite (yields_pure trivial) ?_
    refine .ite (yields_throw (k.error_other _ nofun)) ?_
    refine .bind yields_credit fun source _ => ?_
    refine .bind (yields_ask ⟨m, hm, hmine⟩) fun _ _ => ?_
    exact yields_pure trivial
  · exact yields_pure trivial

end GuildReward

namespace Sharing

theorem yields_draft : Yields (k.protocol r) (fun ctx _ => k.Loaded r m ctx) k.error (fun _ => True) draft := by
  refine .bind yields_get fun ctx ⟨_, hctx⟩ => ?_
  rw [hctx.missionId]
  refine .bind (T := fun _ => True) (yields_pure trivial) fun _ _ => ?_
  exact yields_pure trivial

theorem yields_publish : Yields (k.protocol r) (fun ctx _ => k.Loaded r m ctx) k.error (fun _ => True) publish := by
  refine .bind yields_get fun ctx ⟨_, hctx⟩ => ?_
  refine .ite (yields_pure trivial) ?_
  refine .bind (T := fun _ => True) (yields_require (fun hnone => absurd hnone hctx.target) fun _ _ => trivial) ?_
  refine fun target _ => .bind yields_draft fun entry _ => .bind (yields_ask trivial) fun feed _ => ?_
  refine .bind (yields_query (c := .setShared target true) trivial) fun marked hmarked => ?_
  cases marked with
  | error e =>
    refine .bind (yields_query (c := .deleteFeed feed.id) trivial) fun _ _ => ?_
    exact yields_throw hmarked
  | ok =>
    refine .bind (yields_modify fun ctx _ h => ⟨h.brief, h.participant, h.execution, h.pinned⟩) fun _ _ => ?_
    exact yields_pure trivial

theorem yields_unpublish :
    Yields (k.protocol r) (fun ctx _ => k.Loaded r m ctx) k.error (fun _ => True) unpublish := by
  refine .bind yields_get fun ctx ⟨_, hctx⟩ => ?_
  split
  · exact yields_pure trivial
  · refine .bind (T := fun _ => True) (yields_require (fun hnone => absurd hnone hctx.target) fun _ _ => trivial) ?_
    refine fun target _ => .bind (yields_ask trivial) fun _ _ => ?_
    refine .bind (yields_modify fun ctx _ h => ⟨h.brief, h.participant, h.execution, h.pinned⟩) fun _ _ => ?_
    refine .bind (yields_ask trivial) fun _ _ => ?_
    exact yields_pure trivial

end Sharing

/-! ### The whole run -/

namespace Knowledge

/-- Whatever the step's calls are asked to do with a loaded context, they leave it loaded, and they fail with errors of
the kind that may come. -/
structure Bears (k : Knowledge) (r : Request) (m : Mission) (step : CompletionStep) : Prop where
  execute : ∀ ctx, k.Loaded r m ctx → (step.execute.run ctx).Obeys (k.protocol r)
    (fun result _ => (∀ e, result.1.cause = some e → k.error e) ∧ k.Loaded r m result.2) ()
  compensate : ∀ ctx, k.Loaded r m ctx → (step.compensate.run ctx).Obeys (k.protocol r)
    (fun result _ => (∀ e, result.1.cause = some e → k.error e) ∧ k.Loaded r m result.2) ()

theorem skips_or_bears (hm : k.mission m) :
    ∀ step ∈ [UserReward.step, Advance.step, Closing.step, GuildReward.step, Sharing.step],
      (∀ ctx, k.Loaded r m ctx → step.applies ctx = false) ∨ k.Bears r m step := by
  have hbears {step : CompletionStep} {doing doing' : String} {rejects rejects' : CompletionError → Bool}
      {body undo : Procedure Success} (hexecute : step.execute = settle doing rejects body)
      (hcompensate : step.compensate = settle doing' rejects' undo)
      (hbody : Yields (k.protocol r) (fun ctx _ => k.Loaded r m ctx) k.error (fun _ => True) body)
      (hundo : Yields (k.protocol r) (fun ctx _ => k.Loaded r m ctx) k.error (fun _ => True) undo) : k.Bears r m step :=
    ⟨fun ctx h => hexecute ▸ hbody.settle h, fun ctx h => hcompensate ▸ hundo.settle h⟩
  have hpinned {ctx : Context} (h : k.Loaded r m ctx) : ctx.request.pinned = r.pinned := by rw [h.request]
  simp only [List.forall_mem_cons, List.not_mem_nil, false_imp_iff, implies_true, and_true]
  refine ⟨.inr (hbears rfl rfl UserReward.yields_grant UserReward.yields_revert), ?_, ?_, ?_,
    .inr (hbears rfl rfl Sharing.yields_publish Sharing.yields_unpublish)⟩
  · cases hr : r.pinned with
    | false => exact .inr (hbears rfl rfl (Advance.yields_update hr) (Advance.yields_revert hr hm))
    | true => exact .inl fun ctx h => by simp [Advance.step, hpinned h, hr]
  · cases hr : r.pinned with
    | false => exact .inl fun ctx h => by simp [Closing.step, hpinned h, hr]
    | true => exact .inr (hbears rfl rfl (Closing.yields_close hr) (Closing.yields_revert hr))
  · cases hguild : m.isGuildMission with
    | false => exact .inl fun ctx h => (congrArg Context.Brief.isGuildMission h.brief).trans hguild
    | true => exact .inr (hbears rfl rfl (GuildReward.yields_grant hm hguild) (GuildReward.yields_revert hm))

def Reads (k : Knowledge) (r : Request) (result : CompletionResult) (ctx : Context) (_ : Unit) : Prop :=
  (∀ e, result.cause = some e → k.error e) ∧
    if result.isSuccess then ∃ m, k.mission m ∧ k.Loaded r m ctx else ctx = .start r

theorem obeys_loading :
    (Loading.step.execute.run (.start r)).Obeys (k.protocol r) (fun result g => k.Reads r result.1 result.2 g) () := by
  refine obeys_settle.2 (Loading.meets_load_known.mono fun result ctx g h => ?_)
  cases result with
  | ok success => exact ⟨nofun, h⟩
  | error e =>
    obtain ⟨he, hctx⟩ := h
    dsimp only
    split <;> exact ⟨fun e' he' => Option.some.inj he' ▸ he, hctx⟩

variable (k r) in
theorem visits_known (policy : CompletionStep → RetryPolicy) :
    Run.Visits (k.protocol r) policy
      [Loading.step, UserReward.step, Advance.step, Closing.step, GuildReward.step, Sharing.step]
      (fun ctx _ => ctx = .start r) (fun ctx _ => ∃ m, k.mission m ∧ k.Loaded r m ctx) fun _ _ _ => True := by
  have hrest (m : { m // k.mission m }) :
      Run.Visits (k.protocol r) policy [UserReward.step, Advance.step, Closing.step, GuildReward.step, Sharing.step]
        (fun ctx _ => k.Loaded r m.1 ctx) (fun ctx _ => ∃ m, k.mission m ∧ k.Loaded r m ctx) fun _ _ _ => True := by
    refine (Run.Visits.of_keeps (K := fun ctx _ => k.Loaded r m.1 ctx) fun step hstep => ?_).mono (fun _ _ h => h)
      (fun _ _ h => ⟨m.1, m.2, h⟩) fun _ _ _ _ => trivial
    rcases skips_or_bears (r := r) m.2 step hstep with hskips | hbears
    · exact .inl fun ctx _ h => hskips ctx h
    · exact .inr ⟨fun ctx _ h => (hbears.execute ctx h).mono fun _ _ h => h.2,
        fun ctx _ h => (hbears.compensate ctx h).mono fun _ _ h => h.2⟩
  refine Run.Visits.apply (T := k.Reads r) (J := fun _ _ => False) (V := fun _ _ _ => True) (fun _ _ _ => rfl) ?_ ?_ ?_
    (Run.Visits.exists hrest) (fun _ _ _ h => h) (fun _ _ _ _ _ _ => trivial) ?_ fun _ _ h => h.elim
  · rintro ctx g rfl
    exact obeys_loading
  · rintro (_ | _ | _) ctx g hretry h
    · cases hretry
    · exact h.2
    · cases hretry
  · rintro (_ | _ | _) ctx g hok h
    · obtain ⟨-, m, hm, hloaded⟩ := h
      exact ⟨⟨m, hm⟩, hloaded⟩
    · cases hok
    · cases hok
  · intro result ctx g _ hlasts _
    cases hlasts

theorem obeys_complete_known (k : Knowledge) (o : Operation) (r : Request) :
    (o.complete r).Obeys (k.protocol (o.effective r)) (fun _ _ => True) () := by
  have hvisits := visits_known k (o.effective r) o.saga.policyFor
  rw [← o.steps_saga] at hvisits
  exact o.obeys_complete hvisits r rfl (fun _ _ _ _ _ => trivial) (fun _ _ _ _ _ => trivial) fun _ _ _ => trivial

end Knowledge

end Missions
