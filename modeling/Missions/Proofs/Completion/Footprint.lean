import Missions.Completion.Advance
import Missions.Completion.Closing
import Missions.Completion.GuildReward
import Missions.Completion.Loading
import Missions.Completion.Sharing
import Missions.Completion.UserReward
import Missions.Proofs.Completion.Facets
import Missions.Proofs.Completion.Stages

/-! Which methods the procedures of a step call, which parts of the context they write, and which they go by. What
follows from this alone is proved once, by induction on how a procedure is put together. -/

namespace Missions

def Context.unshared (ctx : Context) : Context :=
  { ctx with request := { ctx.request with share := false }, feed := none }

/-- The context after snapshots of the given names at most were written, and none of what a completion is about. -/
structure Context.Marked (names : List String) (ctx ctx' : Context) : Prop where
  brief : ctx'.brief = ctx.brief
  kept : ∀ {t : SnapshotType} (key : SnapshotKey t), key.name ∉ names → ctx'.kept key = ctx.kept key

structure Context.MarkedOnly (names : List String) (ctx ctx' : Context) : Prop
    extends Context.Marked names ctx ctx' where
  records : ctx'.records = ctx.records

namespace Context

variable {names : List String} {t : SnapshotType} {key : SnapshotKey t}

theorem kept_withExecution (ctx : Context) (m : Mission) (p : Participant) (x : Execution) :
    (ctx.withExecution m p x).kept key = ctx.kept key := rfl

theorem kept_withInstance (ctx : Context) (m : Mission) (i : Instance) :
    (ctx.withInstance m i).kept key = ctx.kept key := rfl

theorem markedOnly_keep (hkey : key.name ∈ names) (ctx : Context) (v : t.Value) :
    MarkedOnly names ctx (ctx.keep key v) where
  brief := rfl
  kept key' hkey' := by
    have hne : key'.name ≠ key.name := fun heq => hkey' (heq ▸ hkey)
    exact ctx.kept_keep_of_ne hne v
  records := rfl

theorem markedOnly_withLevelBefore (ctx : Context) (level : UInt32) :
    MarkedOnly names ctx (ctx.withLevelBefore level) := ⟨⟨rfl, fun _ _ => rfl⟩, rfl⟩

theorem markedOnly_withLevelAfter (ctx : Context) (level : UInt32) :
    MarkedOnly names ctx (ctx.withLevelAfter level) := ⟨⟨rfl, fun _ _ => rfl⟩, rfl⟩

theorem markedOnly_withFeed (ctx : Context) (feed : Option Int) : MarkedOnly names ctx (ctx.withFeed feed) :=
  ⟨⟨rfl, fun _ _ => rfl⟩, rfl⟩

theorem marked_withParticipant (ctx : Context) (p : Participant) : Marked names ctx (ctx.withParticipant p) :=
  ⟨rfl, fun _ _ => rfl⟩

theorem marked_withExecutionStatus (ctx : Context) (status : ExecutionStatus) :
    Marked names ctx (ctx.withExecutionStatus status) := ⟨rfl, fun _ _ => rfl⟩

theorem marked_withInstanceStatus (ctx : Context) (status : ExecutionStatus) :
    Marked names ctx (ctx.withInstanceStatus status) := ⟨rfl, fun _ _ => rfl⟩

variable {ctx ctx' ctx'' : Context}

theorem Marked.refl (ctx : Context) : Marked names ctx ctx := ⟨rfl, fun _ _ => rfl⟩

theorem Marked.trans (h : Marked names ctx ctx') (h' : Marked names ctx' ctx'') : Marked names ctx ctx'' where
  brief := h'.brief.trans h.brief
  kept key hkey := (h'.kept key hkey).trans (h.kept key hkey)

theorem MarkedOnly.trans (h : MarkedOnly names ctx ctx') (h' : MarkedOnly names ctx' ctx'') :
    MarkedOnly names ctx ctx'' where
  toMarked := h.toMarked.trans h'.toMarked
  records := h'.records.trans h.records

theorem Marked.of_unmarked (h : Marked [] ctx ctx') : Marked names ctx ctx' :=
  ⟨h.brief, fun key _ => h.kept key List.not_mem_nil⟩

theorem MarkedOnly.of_unmarked (h : MarkedOnly [] ctx ctx') : MarkedOnly names ctx ctx' :=
  ⟨h.toMarked.of_unmarked, h.records⟩

end Context

namespace Procedure

variable {G α β : Type} {P : Protocol Context G} {K : Context → G → Prop}

/-- A procedure made of calls by the methods and of such changes of the context, which goes by no more of the context
than the view shows. Unless it catches errors it ends with the first one that a call is answered. -/
inductive Confined (view : Context → Context) (catches : Bool) (methods : Method → Bool)
    (changes : Context → Context → Prop) : {α : Type} → Procedure α → Prop
  | pure {α : Type} (a : α) : Confined view catches methods changes (pure a)
  | throw {α : Type} (e : CompletionError) : Confined view catches methods changes (throw e : Procedure α)
  | get_bind {α : Type} {f : Context → Procedure α} (hsame : ∀ ctx, f (view ctx) = f ctx)
      (hf : ∀ ctx, Confined view catches methods changes (f ctx)) : Confined view catches methods changes (get >>= f)
  | modify {f : Context → Context} (hchanges : ∀ ctx, changes ctx (f ctx))
      (hview : ∀ ctx, view (f ctx) = f (view ctx)) :
      Confined view catches methods changes (modify f : Procedure Unit)
  | ask {c : Call} (hc : methods c.method = true) : Confined view catches methods changes (ask c)
  | query {c : Call} (hcatches : catches = true) (hc : methods c.method = true) :
      Confined view catches methods changes (query c)
  | bind {α β : Type} {p : Procedure α} {f : α → Procedure β} (hp : Confined view catches methods changes p)
      (hf : ∀ a, Confined view catches methods changes (f a)) : Confined view catches methods changes (p >>= f)
  | outcome {α : Type} {p : Procedure α} (hcatches : catches = true) (hp : Confined view catches methods changes p) :
      Confined view catches methods changes (outcome p)

section

variable {view : Context → Context} {catches : Bool} {methods methods' : Method → Bool}
  {changes : Context → Context → Prop} {names : List String} {p : Procedure α} {q : Procedure β}

theorem Confined.andThen (hp : Confined view catches methods changes p) (hq : Confined view catches methods changes q) :
    Confined view catches methods changes (p >>= fun _ => q) :=
  hp.bind fun _ => hq

theorem Confined.ite {p q : Procedure α} {holds : Prop} [Decidable holds]
    (hp : Confined view catches methods changes p) (hq : Confined view catches methods changes q) :
    Confined view catches methods changes (if holds then p else q) := by
  split
  · exact hp
  · exact hq

theorem Confined.more (hp : Confined view catches methods changes p)
    (hmethods : ∀ m ∈ Method.all, methods m = true → methods' m = true) :
    Confined view catches methods' changes p := by
  induction hp with
  | pure a => exact .pure a
  | throw e => exact .throw e
  | get_bind hsame _ ih => exact .get_bind hsame ih
  | modify hchanges hview => exact .modify hchanges hview
  | ask hc => exact .ask (hmethods _ (Method.mem_all _) hc)
  | query hcatches hc => exact .query hcatches (hmethods _ (Method.mem_all _) hc)
  | bind _ _ ihp ihf => exact .bind ihp ihf
  | outcome hcatches _ ih => exact .outcome hcatches ih

theorem confined_require (found : Option α) (e : CompletionError) :
    Confined view catches methods changes (require found e) := by
  cases found with
  | none => exact .throw e
  | some a => exact .pure a

theorem confined_check (holds : Bool) (e : CompletionError) :
    Confined view catches methods changes (check holds e) := by
  cases holds with
  | false => exact .throw e
  | true => exact .pure ()

theorem confined_keep {t : SnapshotType} {key : SnapshotKey t} (hkey : key.name ∈ names) (v : t.Value) :
    Confined Context.unshared catches methods (Context.MarkedOnly names) (keep key v) :=
  .modify (fun ctx => Context.markedOnly_keep hkey ctx v) fun _ => rfl

theorem confined_keep_marked {t : SnapshotType} {key : SnapshotKey t} (hkey : key.name ∈ names) (v : t.Value) :
    Confined Context.unshared catches methods (Context.Marked names) (keep key v) :=
  .modify (fun ctx => (Context.markedOnly_keep hkey ctx v).toMarked) fun _ => rfl

end

def Preserves (P : Protocol Context G) (K : Context → G → Prop) (p : Procedure α) : Prop :=
  ∀ ctx g, K ctx g → p.Meets P (fun _ => K) ctx g

theorem preserves_pure (a : α) : Preserves P K (pure a : Procedure α) := fun _ _ h => h

theorem preserves_throw (e : CompletionError) : Preserves P K (throw e : Procedure α) := fun _ _ h => h

theorem preserves_get : Preserves P K get := fun _ _ h => h

theorem Preserves.meets_bind {p : Procedure α} {f : α → Procedure β}
    {Q : Except CompletionError β → Context → G → Prop} {ctx : Context} {g : G} (hp : Preserves P K p) (h : K ctx g)
    (herror : ∀ e ctx g, K ctx g → Q (.error e) ctx g) (hf : ∀ a ctx g, K ctx g → (f a).Meets P Q ctx g) :
    (p >>= f).Meets P Q ctx g := by
  rw [Procedure.meets_bind]
  refine (hp ctx g h).mono fun r ctx g h => ?_
  cases r with
  | ok a => exact hf a ctx g h
  | error e => exact herror e ctx g h

theorem Preserves.bind {p : Procedure α} {f : α → Procedure β} (hp : Preserves P K p)
    (hf : ∀ a, Preserves P K (f a)) : Preserves P K (p >>= f) := fun _ _ h => hp.meets_bind h (fun _ _ _ h => h) hf

theorem preserves_require (found : Option α) (e : CompletionError) : Preserves P K (require found e) := by
  cases found with
  | none => exact preserves_throw e
  | some a => exact preserves_pure a

theorem preserves_check (holds : Bool) (e : CompletionError) : Preserves P K (check holds e) := by
  cases holds with
  | false => exact preserves_throw e
  | true => exact preserves_pure ()

theorem Preserves.outcome {p : Procedure α} (hp : Preserves P K p) : Preserves P K (outcome p) :=
  fun ctx g h => meets_outcome.2 (hp ctx g h)

theorem Preserves.either {p : Procedure α} (hp : Preserves P K p) {ctx : Context} {g : G} (h : K ctx g) :
    p.Meets P (Either K fun _ => K) ctx g := by
  refine (hp ctx g h).mono fun r ctx g h => ?_
  cases r <;> exact h

theorem Preserves.settle {doing : String} {rejects : CompletionError → Bool} {body : Procedure Success}
    (hbody : Preserves P K body) {ctx : Context} {g : G} (h : K ctx g) :
    ((settle doing rejects body).run ctx).Obeys P (fun r g => K r.2 g) g := by
  refine obeys_settle.2 ((hbody ctx g h).mono fun r ctx g h => ?_)
  cases r <;> exact h

theorem Preserves.keeps {step : CompletionStep} {doing doing' : String} {rejects rejects' : CompletionError → Bool}
    {body undo : Procedure Success} (hexecute : step.execute = Procedure.settle doing rejects body)
    (hcompensate : step.compensate = Procedure.settle doing' rejects' undo) (hbody : Preserves P K body)
    (hundo : Preserves P K undo) : Run.Keeps P.logic K step :=
  .inr ⟨fun _ _ h => hexecute ▸ hbody.settle h, fun _ _ h => hcompensate ▸ hundo.settle h⟩

/-- A condition that calls of the methods and the changes of the context leave as it is. -/
structure Tolerates (P : Protocol Context G) (K : Context → G → Prop) (methods : Method → Bool)
    (changes : Context → Context → Prop) : Prop where
  call : ∀ {ctx : Context} {g : G} {c : Call}, K ctx g → methods c.method = true →
    P.allowed ctx g c ∧ ∀ answer g', P.answered ctx g c answer g' → K ctx g'
  change : ∀ {ctx ctx' : Context} {g : G}, K ctx g → changes ctx ctx' → K ctx' g

namespace Tolerates

variable {methods : Method → Bool} {changes : Context → Context → Prop}

theorem only {names : List String} (h : Tolerates P K methods (Context.Marked names)) :
    Tolerates P K methods (Context.MarkedOnly names) where
  call := h.call
  change hK hmarked := h.change hK hmarked.toMarked

theorem unmarked {names : List String} (h : Tolerates P K methods (Context.Marked names)) :
    Tolerates P K methods (Context.Marked []) where
  call := h.call
  change hK hmarked := h.change hK hmarked.of_unmarked

theorem unmarkedOnly {names : List String} (h : Tolerates P K methods (Context.MarkedOnly names)) :
    Tolerates P K methods (Context.MarkedOnly []) where
  call := h.call
  change hK hmarked := h.change hK hmarked.of_unmarked

theorem fewer {methods' : Method → Bool} (h : Tolerates P K methods changes)
    (hmethods : ∀ m ∈ Method.all, methods' m = true → methods m = true) : Tolerates P K methods' changes where
  call hK hc := h.call hK (hmethods _ (Method.mem_all _) hc)
  change := h.change

theorem ask (h : Tolerates P K methods changes) {c : Call} (hc : methods c.method = true) :
    Preserves P K (ask c) := fun _ _ hK => meets_ask.2 (h.call hK hc)

theorem query (h : Tolerates P K methods changes) {c : Call} (hc : methods c.method = true) :
    Preserves P K (query c) := fun _ _ hK => meets_query.2 (h.call hK hc)

theorem modify (h : Tolerates P K methods changes) {f : Context → Context} (hf : ∀ ctx, changes ctx (f ctx)) :
    Preserves P K (modify f : Procedure Unit) := fun ctx _ hK => h.change hK (hf ctx)

theorem keep {names : List String} (h : Tolerates P K methods (Context.MarkedOnly names)) {t : SnapshotType}
    {key : SnapshotKey t} (hkey : key.name ∈ names) (v : t.Value) : Preserves P K (keep key v) :=
  h.modify fun ctx => Context.markedOnly_keep hkey ctx v

end Tolerates

theorem Confined.preserves {view : Context → Context} {catches : Bool} {methods : Method → Bool}
    {changes : Context → Context → Prop} {p : Procedure α} (hp : Confined view catches methods changes p)
    (h : Tolerates P K methods changes) : Preserves P K p := by
  induction hp with
  | pure a => exact preserves_pure a
  | throw e => exact preserves_throw e
  | get_bind _ _ ih => exact preserves_get.bind ih
  | modify hchanges _ => exact h.modify hchanges
  | ask hc => exact h.ask hc
  | query _ hc => exact h.query hc
  | bind _ _ ihp ihf => exact ihp.bind ihf
  | outcome _ _ ih => exact ih.outcome

end Procedure

open Procedure

variable {G : Type} {P : Protocol Context G} {K : Context → G → Prop} {changes : Context → Context → Prop}

namespace Loading

def methods : Method → Bool
  | .findMission | .findParticipant | .findExecutionInProgress | .findInstance => true
  | _ => false

structure Loads (ctx ctx' : Context) : Prop where
  request : ctx'.request = ctx.request
  snapshots : ctx'.snapshots = ctx.snapshots
  shown : ctx'.shown = ctx.shown

theorem confined_findMission (id : Int) : Confined Context.unshared false methods changes (findMission id) := by
  apply Confined.bind (.ask rfl)
  intro found
  exact confined_require _ _

theorem confined_loadExecution : Confined Context.unshared false methods Loads loadExecution := by
  refine .get_bind (fun _ => rfl) fun ctx => ?_
  apply Confined.bind (confined_findMission _)
  intro mission
  apply Confined.bind (.ask rfl)
  intro found
  apply Confined.bind (confined_require _ _)
  intro participant
  apply Confined.andThen (confined_check _ _)
  apply Confined.bind (.ask rfl)
  intro found
  apply Confined.bind (confined_require _ _)
  intro execution
  apply Confined.andThen (confined_check _ _)
  apply Confined.andThen (confined_check _ _)
  refine .andThen (.modify (fun _ => ⟨rfl, rfl, rfl⟩) fun _ => rfl) ?_
  exact .pure _

theorem confined_loadInstance : Confined Context.unshared false methods Loads loadInstance := by
  refine .get_bind (fun _ => rfl) fun ctx => ?_
  apply Confined.bind (.ask rfl)
  intro found
  apply Confined.bind (confined_require _ _)
  intro pinned
  apply Confined.andThen (confined_check _ _)
  apply Confined.andThen (confined_check _ _)
  apply Confined.bind (confined_findMission _)
  intro mission
  refine .andThen (.modify (fun _ => ⟨rfl, rfl, rfl⟩) fun _ => rfl) ?_
  exact .pure _

theorem confined_load : Confined Context.unshared false methods Loads load := by
  refine .get_bind (fun _ => rfl) fun ctx => ?_
  apply Confined.ite confined_loadInstance
  exact confined_loadExecution

theorem keeps (h : Tolerates P K methods Loads) : Run.Keeps P.logic K step :=
  (confined_load.preserves h).keeps rfl compensate_eq_settle (preserves_pure _)

end Loading

namespace UserReward

def methods : Method → Bool
  | .currentExperience | .grantExperience | .subtractExperience => true
  | _ => false

def marks : List String :=
  [Snapshot.userTotalBefore.name, Snapshot.userLevelBefore.name, Snapshot.userTotalAfter.name,
    Snapshot.userGranted.name]

theorem confined_grant : Confined Context.unshared false methods (Context.MarkedOnly marks) grant := by
  refine .get_bind (fun _ => rfl) fun ctx => ?_
  apply Confined.ite (.pure _)
  apply Confined.bind (.ask rfl)
  intro before
  apply Confined.andThen (confined_keep (by decide) _)
  apply Confined.andThen (confined_keep (by decide) _)
  refine .andThen (.modify (fun ctx => ctx.markedOnly_withLevelBefore _) fun _ => rfl) ?_
  apply Confined.bind (.ask rfl)
  intro after
  apply Confined.andThen (confined_keep (by decide) _)
  apply Confined.andThen (confined_keep (by decide) _)
  refine .andThen (.modify (fun ctx => ctx.markedOnly_withLevelAfter _) fun _ => rfl) ?_
  exact .pure _

def undoMethods : Method → Bool
  | .currentExperience | .subtractExperience => true
  | _ => false

theorem confined_revert : Confined Context.unshared false undoMethods (Context.MarkedOnly []) revert := by
  refine .get_bind (fun _ => rfl) fun ctx => ?_
  split
  · apply Confined.bind (.ask rfl)
    intro current
    apply Confined.ite (.pure _)
    apply Confined.ite (.throw _)
    apply Confined.bind (.ask rfl)
    intro restored
    refine .andThen (.modify (fun ctx => ctx.markedOnly_withLevelAfter _) fun _ => rfl) ?_
    exact .pure _
  · exact .pure _

theorem keeps (h : Tolerates P K methods (Context.MarkedOnly marks)) : Run.Keeps P.logic K step :=
  (confined_grant.preserves h).keeps rfl rfl (confined_revert.preserves (h.fewer (by decide)).unmarkedOnly)

end UserReward

namespace Advance

def methods : Method → Bool
  | .completeExecution | .countExecutions | .findExecution | .saveExecution | .findParticipant | .saveParticipant =>
    true
  | _ => false

def closingMarks : List String :=
  [Snapshot.targetBefore.name, Snapshot.targetAfter.name, Snapshot.progressBefore.name, Snapshot.progressAfter.name,
    Snapshot.participantBefore.name, Snapshot.participantAfter.name]

/-- The methods by which a participant's progress is recorded and put back. -/
def progressMethods : Method → Bool
  | .countExecutions | .findParticipant | .saveParticipant => true
  | _ => false

def participantMethods : Method → Bool
  | .findParticipant | .saveParticipant => true
  | _ => false

/-- The methods by which an execution and its participant are put back. -/
def undoMethods : Method → Bool
  | .findExecution | .saveExecution | .findParticipant | .saveParticipant => true
  | _ => false

theorem confined_recordProgress (p : Participant) (total : UInt32) :
    Confined Context.unshared true progressMethods changes (recordProgress p total) := by
  apply Confined.bind (.ask rfl)
  intro completed
  apply Confined.andThen (.ask rfl)
  exact .pure _

theorem confined_release (x : Execution) (cause : CompletionError) :
    Confined Context.unshared true undoMethods changes (release x cause) := by
  apply Confined.bind (.query rfl rfl)
  intro saved
  cases saved <;> exact .pure _

theorem confined_update : Confined Context.unshared true methods (Context.Marked closingMarks) update := by
  refine .get_bind (fun _ => rfl) fun ctx => ?_
  apply Confined.bind (confined_require _ _)
  intro execution
  apply Confined.bind (confined_require _ _)
  intro participant
  apply Confined.bind (confined_require _ _)
  intro mission
  apply Confined.andThen (confined_keep_marked (by decide) _)
  apply Confined.andThen (confined_keep_marked (by decide) _)
  apply Confined.andThen (confined_keep_marked (by decide) _)
  apply Confined.bind (.ask rfl)
  intro claimed
  apply Confined.andThen (confined_check _ _)
  apply Confined.bind (.outcome rfl ((confined_recordProgress _ _).more (by decide)))
  intro recorded
  cases recorded with
  | error e =>
    apply Confined.bind ((confined_release _ _).more (by decide))
    intro e
    exact .throw e
  | ok updated =>
    apply Confined.andThen (confined_keep_marked (by decide) _)
    apply Confined.andThen (confined_keep_marked (by decide) _)
    apply Confined.andThen (confined_keep_marked (by decide) _)
    refine .andThen (.modify (fun ctx => ?_) fun _ => rfl) (.pure _)
    exact (ctx.marked_withExecutionStatus _).trans (Context.marked_withParticipant _ _)

theorem confined_restoreExecution (id : Int) (before after : ExecutionStatus) :
    Confined Context.unshared true undoMethods changes (restoreExecution id before after) := by
  apply Confined.bind (.ask rfl)
  intro found
  apply Confined.bind (confined_require _ _)
  intro current
  apply Confined.ite (.pure _)
  apply Confined.ite (.throw _)
  apply Confined.andThen (.ask rfl)
  exact .pure _

theorem confined_restoreParticipant (mission : Int) :
    Confined Context.unshared true participantMethods changes (restoreParticipant mission) := by
  refine .get_bind (fun _ => rfl) fun ctx => ?_
  split
  · apply Confined.bind (.ask rfl)
    intro found
    apply Confined.bind (confined_require _ _)
    intro current
    apply Confined.ite (.pure _)
    apply Confined.ite (.throw _)
    apply Confined.andThen (.ask rfl)
    exact .pure _
  · exact .pure _

theorem confined_revert : Confined Context.unshared true undoMethods (Context.Marked []) revert := by
  refine .get_bind (fun _ => rfl) fun ctx => ?_
  split
  · apply Confined.bind (confined_require _ _)
    intro execution
    apply Confined.bind (confined_require _ _)
    intro mission
    apply Confined.bind (.outcome rfl (confined_restoreExecution _ _ _))
    intro executionOutcome
    refine .andThen (.modify (fun ctx => ?_) fun ctx => ?_) ?_
    · split
      · exact ctx.marked_withExecutionStatus _
      · exact .refl ctx
    · split <;> rfl
    apply Confined.bind (.outcome rfl ((confined_restoreParticipant _).more (by decide)))
    intro participantOutcome
    refine .andThen (.modify (fun ctx => ?_) fun ctx => ?_) ?_
    · split
      · exact ctx.marked_withParticipant _
      · exact .refl ctx
      · exact .refl ctx
    · split <;> rfl
    split <;> first | exact .pure _ | exact .throw _
  · exact .pure _

theorem keeps (h : Tolerates P K methods (Context.Marked closingMarks)) : Run.Keeps P.logic K step :=
  (confined_update.preserves h).keeps rfl rfl (confined_revert.preserves (h.fewer (by decide)).unmarked)

end Advance

namespace Closing

def methods : Method → Bool
  | .completeInstance | .findInstance | .saveInstance => true
  | _ => false

def marks : List String := [Snapshot.targetBefore.name, Snapshot.targetAfter.name]

theorem confined_close : Confined Context.unshared false methods (Context.Marked marks) close := by
  refine .get_bind (fun _ => rfl) fun ctx => ?_
  apply Confined.bind (confined_require _ _)
  intro pinned
  apply Confined.andThen (confined_keep_marked (by decide) _)
  apply Confined.bind (.ask rfl)
  intro claimed
  apply Confined.andThen (confined_check _ _)
  apply Confined.andThen (confined_keep_marked (by decide) _)
  refine .andThen (.modify (fun ctx => ctx.marked_withInstanceStatus _) fun _ => rfl) ?_
  exact .pure _

def undoMethods : Method → Bool
  | .findInstance | .saveInstance => true
  | _ => false

theorem confined_revert : Confined Context.unshared false undoMethods (Context.Marked []) revert := by
  refine .get_bind (fun _ => rfl) fun ctx => ?_
  split
  · apply Confined.bind (confined_require _ _)
    intro pinned
    apply Confined.bind (.ask rfl)
    intro found
    apply Confined.bind (confined_require _ _)
    intro current
    apply Confined.ite (.pure _)
    apply Confined.ite (.throw _)
    apply Confined.andThen (.ask rfl)
    refine .andThen (.modify (fun ctx => ctx.marked_withInstanceStatus _) fun _ => rfl) ?_
    exact .pure _
  · exact .pure _

theorem keeps (h : Tolerates P K methods (Context.Marked marks)) : Run.Keeps P.logic K step :=
  (confined_close.preserves h).keeps rfl rfl (confined_revert.preserves (h.fewer (by decide)).unmarked)

end Closing

namespace GuildReward

def methods : Method → Bool
  | .guildExperience | .addGuildExperience | .subtractGuildExperience => true
  | _ => false

def marks : List String :=
  [Snapshot.guildTotalBefore.name, Snapshot.guildLevelBefore.name, Snapshot.guildTotalAfter.name,
    Snapshot.guildGranted.name]

theorem confined_credit {methods : Method → Bool} :
    Confined Context.unshared false methods changes credit := by
  refine .get_bind (fun _ => rfl) fun ctx => ?_
  apply Confined.bind (confined_require _ _)
  intro mission
  exact .pure _

theorem confined_grant : Confined Context.unshared false methods (Context.MarkedOnly marks) grant := by
  refine .get_bind (fun _ => rfl) fun ctx => ?_
  apply Confined.bind (confined_require _ _)
  intro guild
  apply Confined.ite (.pure _)
  apply Confined.bind confined_credit
  intro source
  apply Confined.bind (.ask rfl)
  intro before
  apply Confined.andThen (confined_keep (by decide) _)
  apply Confined.andThen (confined_keep (by decide) _)
  apply Confined.bind (.ask rfl)
  intro after
  apply Confined.andThen (confined_keep (by decide) _)
  apply Confined.andThen (confined_keep (by decide) _)
  exact .pure _

def undoMethods : Method → Bool
  | .guildExperience | .subtractGuildExperience => true
  | _ => false

theorem confined_revert : Confined Context.unshared false undoMethods (Context.MarkedOnly []) revert := by
  refine .get_bind (fun _ => rfl) fun ctx => ?_
  split
  · apply Confined.bind (.ask rfl)
    intro current
    apply Confined.ite (.pure _)
    apply Confined.ite (.throw _)
    apply Confined.bind confined_credit
    intro source
    apply Confined.bind (.ask rfl)
    intro restored
    exact .pure _
  · exact .pure _

theorem keeps (h : Tolerates P K methods (Context.MarkedOnly marks)) : Run.Keeps P.logic K step :=
  (confined_grant.preserves h).keeps rfl rfl (confined_revert.preserves (h.fewer (by decide)).unmarkedOnly)

end GuildReward

namespace Sharing

def methods : Method → Bool
  | .createFeed | .deleteFeed | .setShared => true
  | _ => false

theorem confined_draft {catches : Bool} {methods : Method → Bool} : Confined id catches methods changes draft := by
  refine .get_bind (fun _ => rfl) fun ctx => ?_
  apply Confined.bind (confined_require _ _)
  intro mission
  exact .pure _

theorem confined_publish_feed (hfeed : ∀ ctx feed, changes ctx (Context.withFeed ctx feed)) :
    Confined id true methods changes publish := by
  refine .get_bind (fun _ => rfl) fun ctx => ?_
  apply Confined.ite (.pure _)
  apply Confined.bind (confined_require _ _)
  intro target
  apply Confined.bind confined_draft
  intro entry
  apply Confined.bind (.ask rfl)
  intro feed
  apply Confined.bind (.query rfl rfl)
  intro marked
  cases marked with
  | error e =>
    apply Confined.andThen (.query rfl rfl)
    exact .throw e
  | ok =>
    refine .andThen (.modify (fun ctx => hfeed ctx _) fun _ => rfl) ?_
    exact .pure _

theorem confined_publish : Confined id true methods (Context.MarkedOnly []) publish :=
  confined_publish_feed fun ctx _ => ctx.markedOnly_withFeed _

def undoMethods : Method → Bool
  | .deleteFeed | .setShared => true
  | _ => false

theorem confined_unpublish : Confined id false undoMethods (Context.MarkedOnly []) unpublish := by
  refine .get_bind (fun _ => rfl) fun ctx => ?_
  split
  · exact .pure _
  · apply Confined.bind (confined_require _ _)
    intro target
    apply Confined.andThen (.ask rfl)
    refine .andThen (.modify (fun ctx => ctx.markedOnly_withFeed _) fun _ => rfl) ?_
    apply Confined.andThen (.ask rfl)
    exact .pure _

theorem keeps (h : Tolerates P K methods (Context.MarkedOnly [])) : Run.Keeps P.logic K step :=
  (confined_publish.preserves h).keeps rfl rfl (confined_unpublish.preserves (h.fewer (by decide)))

end Sharing

namespace Context

variable {names : List String} {ctx ctx' : Context}

theorem Marked.reward (h : Marked names ctx ctx') (hnames : ∀ name ∈ UserReward.marks, name ∉ names) :
    ctx'.reward = ctx.reward := by
  have hkept {t : SnapshotType} (key : SnapshotKey t) (hkey : key.name ∈ UserReward.marks) :=
    h.kept key (hnames _ hkey)
  rw [Context.reward, Context.reward, hkept _ (by decide), hkept _ (by decide), hkept _ (by decide)]

theorem Marked.closing (h : Marked names ctx ctx') (hnames : ∀ name ∈ Advance.closingMarks, name ∉ names) :
    ctx'.closing = ctx.closing := by
  have hkept {t : SnapshotType} (key : SnapshotKey t) (hkey : key.name ∈ Advance.closingMarks) :=
    h.kept key (hnames _ hkey)
  rw [Context.closing, Context.closing, hkept _ (by decide), hkept _ (by decide), hkept _ (by decide),
    hkept _ (by decide), hkept _ (by decide), hkept _ (by decide)]

end Context

end Missions
