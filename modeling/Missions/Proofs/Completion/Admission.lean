import Missions.Proofs.Completion.Effect
import Missions.Proofs.Completion.Footprint
import Missions.Rehearsal.Fixture

/-! Which requests loading admits, told by what the books hold, and not by how it is looked up. -/

namespace Missions

theorem ParticipantStatus.isActive_iff (status : ParticipantStatus) :
    status.isActive = true ↔ status = .accepted ∨ status = .inProgress ∨ status = .completed := by
  cases status <;> decide

theorem Table.find?_values_eq_none_iff {κ ν : Type} [Ord κ] [Std.LawfulEqOrd κ] {t : Table κ ν} {p : ν → Bool} :
    t.values.find? p = none ↔ ∀ k v, t.get? k = some v → p v = false := by
  simp only [List.find?_eq_none, mem_values_iff, Bool.not_eq_true]
  exact ⟨fun h k v hv => h v ⟨k, hv⟩, fun h v ⟨k, hv⟩ => h k v hv⟩

namespace Books

variable {books : Books} {r : Request}

/-! ### What the lookups find -/

structure PartOf (books : Books) (mission : Int) (user : String) (p : Participant) : Prop where
  stored : books.participants.get? p.id = some p
  mission : p.mission = mission
  user : p.user = user

/-- Nobody takes part in a mission twice. -/
def PartsOnce (books : Books) : Prop :=
  ∀ mission user p q, books.PartOf mission user p → books.PartOf mission user q → p = q

theorem PartsOnce.of_stored (h : ∀ p ∈ books.participants.values, ∀ q ∈ books.participants.values,
    p.mission = q.mission → p.user = q.user → p = q) : books.PartsOnce := by
  intro mission user p q hp hq
  have hstored {p : Participant} (hp : books.PartOf mission user p) : p ∈ books.participants.values :=
    Table.mem_values_iff.2 ⟨p.id, hp.stored⟩
  exact h p (hstored hp) q (hstored hq) (hp.mission.trans hq.mission.symm) (hp.user.trans hq.user.symm)

theorem participantOf_eq_some_iff (hkeyed : books.Keyed) (honce : books.PartsOnce) {mission : Int} {user : String}
    {p : Participant} : books.participantOf mission user = some p ↔ books.PartOf mission user p := by
  constructor
  · intro h
    obtain ⟨hstored, hmission, huser⟩ := participantOf_eq_some hkeyed h
    exact ⟨hstored, hmission, huser⟩
  · intro h
    cases hfound : books.participantOf mission user with
    | none =>
      have hnone := Table.find?_values_eq_none_iff.1 hfound p.id p h.stored
      simp [h.mission, h.user] at hnone
    | some q =>
      obtain ⟨hstored, hmission, huser⟩ := participantOf_eq_some hkeyed hfound
      rw [honce mission user q p ⟨hstored, hmission, huser⟩ h]

theorem participantOf_eq_none_iff (hkeyed : books.Keyed) {mission : Int} {user : String} :
    books.participantOf mission user = none ↔ ∀ p, ¬ books.PartOf mission user p := by
  rw [participantOf, Table.find?_values_eq_none_iff]
  constructor
  · rintro h p ⟨hstored, rfl, rfl⟩
    simpa using h p.id p hstored
  · intro h id p hp
    obtain rfl := hkeyed.participants id p hp
    simpa using fun hmission huser => h p ⟨hp, hmission, huser⟩

theorem executionInProgress_eq_some_iff (hkeyed : books.Keyed) {p : Participant} {x : Execution} :
    books.executionInProgress p.id = some x ↔ books.FirstOpen p x := by
  refine ⟨firstOpen_of_executionInProgress hkeyed, fun h => ?_⟩
  cases hfound : books.executionInProgress p.id with
  | none =>
    have hnone := Table.find?_values_eq_none_iff.1 hfound x.id x h.stored
    simp [h.participant, h.status] at hnone
  | some y =>
    have hy := firstOpen_of_executionInProgress hkeyed hfound
    have hid : y.id = x.id :=
      Int.le_antisymm (hy.first x h.stored h.participant h.status) (h.first y hy.stored hy.participant hy.status)
    rw [← hy.stored, hid, h.stored]

theorem executionInProgress_eq_none_iff (hkeyed : books.Keyed) {participant : Int} :
    books.executionInProgress participant = none ↔
      ∀ x, books.executions.get? x.id = some x → x.participant = participant → x.status ≠ .inProgress := by
  rw [executionInProgress, Table.find?_values_eq_none_iff]
  constructor
  · intro h x hx hparticipant
    simpa [hparticipant] using h x.id x hx
  · intro h id x hx
    obtain rfl := hkeyed.executions id x hx
    simpa using h x hx

/-! ### Requests and jobs -/

/-- The books hold all that a request takes, for this job. -/
def Admits (books : Books) (r : Request) : Job → Prop
  | .regular m p x => r.pinned = false ∧ books.missions.get? r.target = some m ∧
      books.PartOf r.target r.user p ∧ (p.status = .accepted ∨ p.status = .inProgress ∨ p.status = .completed) ∧
      books.FirstOpen p x ∧ x.user = r.user
  | .pinned m i => r.pinned = true ∧ books.instances.get? r.target = some i ∧ i.user = r.user ∧
      i.status = .inProgress ∧ books.missions.get? i.mission = some m

/-- The first of the conditions that a request fails, by the error that tells of it. -/
inductive Refuses (books : Books) (r : Request) : CompletionError → Prop
  | noMission (hr : r.pinned = false) (hm : books.missions.get? r.target = none) :
      Refuses books r (.notFound "mission" (toString r.target))
  | noPart (hr : r.pinned = false) {m : Mission} (hm : books.missions.get? r.target = some m)
      (hp : ∀ p, ¬ books.PartOf r.target r.user p) : Refuses books r (.notParticipant r.target r.user)
  | partLeft (hr : r.pinned = false) {m : Mission} (hm : books.missions.get? r.target = some m) {p : Participant}
      (hp : books.PartOf r.target r.user p) (hleft : p.status = .failed ∨ p.status = .withdrawn) :
      Refuses books r (.participantInactive r.target p.id p.status)
  | noneOpen (hr : r.pinned = false) {m : Mission} (hm : books.missions.get? r.target = some m) {p : Participant}
      (hp : books.PartOf r.target r.user p) (hactive : p.status.isActive = true)
      (hx : ∀ x, books.executions.get? x.id = some x → x.participant = p.id → x.status ≠ .inProgress) :
      Refuses books r (.noExecutionInProgress r.target)
  | executionOfOther (hr : r.pinned = false) {m : Mission} (hm : books.missions.get? r.target = some m)
      {p : Participant} (hp : books.PartOf r.target r.user p) (hactive : p.status.isActive = true) {x : Execution}
      (hx : books.FirstOpen p x) (huser : x.user ≠ r.user) : Refuses books r (.notOwner "execution" x.id r.user)
  | noInstance (hr : r.pinned = true) (hi : books.instances.get? r.target = none) :
      Refuses books r (.notFound "mission instance" (toString r.target))
  | instanceOfOther (hr : r.pinned = true) {i : Instance} (hi : books.instances.get? r.target = some i)
      (huser : i.user ≠ r.user) : Refuses books r (.notOwner "mission instance" i.id r.user)
  | instanceNotOpen (hr : r.pinned = true) {i : Instance} (hi : books.instances.get? r.target = some i)
      (huser : i.user = r.user) (hstatus : i.status ≠ .inProgress) :
      Refuses books r (.invalidStatus "mission instance" i.id .inProgress i.status)
  | noMissionOfInstance (hr : r.pinned = true) {i : Instance} (hi : books.instances.get? r.target = some i)
      (huser : i.user = r.user) (hstatus : i.status = .inProgress) (hm : books.missions.get? i.mission = none) :
      Refuses books r (.notFound "mission" (toString i.mission))

theorem Refuses.isValidation {e : CompletionError} (h : books.Refuses r e) : e.isValidation = true := by
  cases h <;> rfl

theorem admits_or_refuses (hkeyed : books.Keyed) (r : Request) :
    (∃ job, books.Admits r job) ∨ ∃ e, books.Refuses r e := by
  cases hr : r.pinned with
  | true =>
    cases hi : books.instances.get? r.target with
    | none => exact .inr ⟨_, .noInstance hr hi⟩
    | some i =>
      by_cases huser : i.user = r.user
      · by_cases hstatus : i.status = .inProgress
        · cases hm : books.missions.get? i.mission with
          | none => exact .inr ⟨_, .noMissionOfInstance hr hi huser hstatus hm⟩
          | some m => exact .inl ⟨.pinned m i, hr, hi, huser, hstatus, hm⟩
        · exact .inr ⟨_, .instanceNotOpen hr hi huser hstatus⟩
      · exact .inr ⟨_, .instanceOfOther hr hi huser⟩
  | false =>
    cases hm : books.missions.get? r.target with
    | none => exact .inr ⟨_, .noMission hr hm⟩
    | some m =>
      by_cases hpart : ∃ p, books.PartOf r.target r.user p
      · obtain ⟨p, hp⟩ := hpart
        cases hactive : p.status.isActive with
        | false => exact .inr ⟨_, .partLeft hr hm hp (by revert hactive; cases p.status <;> decide)⟩
        | true =>
          cases hx : books.executionInProgress p.id with
          | none => exact .inr ⟨_, .noneOpen hr hm hp hactive ((executionInProgress_eq_none_iff hkeyed).1 hx)⟩
          | some x =>
            have hopen := (executionInProgress_eq_some_iff hkeyed).1 hx
            by_cases huser : x.user = r.user
            · exact .inl ⟨.regular m p x, hr, hm, hp, (ParticipantStatus.isActive_iff _).1 hactive, hopen, huser⟩
            · exact .inr ⟨_, .executionOfOther hr hm hp hactive hopen huser⟩
      · exact .inr ⟨_, .noPart hr hm fun p hp => hpart ⟨p, hp⟩⟩

end Books

/-! ### What loading finds -/

namespace Procedure

variable {α β : Type} {w : World} {ctx ctx' : Context} {r : Except CompletionError β} {e : CompletionError}

/-- In the world the procedure comes to a result and a context. It writes nothing, and leaves the world as it is. -/
def Finds (w : World) (p : Procedure α) (ctx : Context) (r : Except CompletionError α) (ctx' : Context) : Prop :=
  ((p.run.run ctx).serve (World.server.noting Note.writes)).run (w, []) = ((r, ctx'), w, [])

theorem Finds.get_bind {f : Context → Procedure β} (h : (f ctx).Finds w ctx r ctx') :
    (get >>= f).Finds w ctx r ctx' := h

theorem Finds.ask_bind {c : Call} (hc : Loading.methods c.method = true) {f : c.Answer → Procedure β}
    (h : (f (w.books.perform c).1).Finds w ctx r ctx') : (ask c >>= f).Finds w ctx r ctx' := by
  cases c <;> first | exact h | cases hc

theorem Finds.require_bind {found : Option α} {a : α} (hfound : found = some a) {f : α → Procedure β}
    (h : (f a).Finds w ctx r ctx') : (require found e >>= f).Finds w ctx r ctx' := by
  subst hfound
  exact h

theorem finds_require_none {found : Option α} (hfound : found = none) {f : α → Procedure β} :
    (require found e >>= f).Finds w ctx (.error e) ctx := by
  subst hfound
  rfl

theorem Finds.check_bind {holds : Bool} (hholds : holds = true) {f : Unit → Procedure β}
    (h : (f ()).Finds w ctx r ctx') : (check holds e >>= f).Finds w ctx r ctx' := by
  subst hholds
  exact h

theorem finds_check_fails {holds : Bool} (hfails : holds = false) {f : Unit → Procedure β} :
    (check holds e >>= f).Finds w ctx (.error e) ctx := by
  subst hfails
  rfl

theorem Finds.settle {doing : String} {rejects : CompletionError → Bool} {body : Procedure Success}
    {r : Except CompletionError Success} (h : body.Finds w ctx r ctx') :
    (((settle doing rejects body).run ctx).serve (World.server.noting Note.writes)).run (w, []) =
      ((match r with
        | .ok success => .success success.message success.receipt
        | .error e => if rejects e then .rejected (doing ++ ": " ++ e.message) e
            else .transient (doing ++ ": " ++ e.message) (some e), ctx'), w, []) := by
  rw [Finds] at h
  rw [run_settle, Program.run_serve_bind, h]
  cases r <;> rfl

end Procedure

def Job.receipt : Job → Receipt
  | regular m _ x => .loadedExecution m.id x.id m.isGuildMission
  | pinned m i => .loadedInstance m.id i.id m.isGuildMission

def Context.withJob (ctx : Context) : Job → Context
  | .regular m p x => ctx.withExecution m p x
  | .pinned m i => ctx.withInstance m i

/-- The context shows the records of a job, and what the mission shows and rewards. -/
structure Context.Holds (ctx : Context) (job : Job) : Prop where
  mission : ctx.mission = some job.mission
  userEarned : ctx.userEarned = job.mission.experience
  guildEarned : ctx.guildEarned = if job.mission.guild.isSome then job.mission.guildExperience else 0
  guild : ctx.guild = job.mission.guild
  isGuildMission : ctx.isGuildMission = ctx.guild.isSome
  records : match job with
    | .regular _ p x => ctx.participant = some p ∧ ctx.execution = some x
    | .pinned _ i => ctx.pinned = some i

theorem Context.holds_withJob (ctx : Context) (job : Job) : (ctx.withJob job).Holds job := by
  cases job <;> exact ⟨rfl, rfl, rfl, rfl, rfl, by first | rfl | exact ⟨rfl, rfl⟩⟩

namespace Loading

open Procedure

variable {w : World} {ctx ctx' : Context} {r : Except CompletionError Success}

section

variable {α : Type} {id : Int} {f : Mission → Procedure α} {r : Except CompletionError α}

theorem finds_findMission_bind {m : Mission} (hm : w.books.missions.get? id = some m)
    (h : (f m).Finds w ctx r ctx') : (findMission id >>= f).Finds w ctx r ctx' := by
  rw [findMission, bind_assoc]
  apply Finds.ask_bind rfl
  exact .require_bind hm h

theorem finds_findMission_none (hm : w.books.missions.get? id = none) :
    (findMission id >>= f).Finds w ctx (.error (.notFound "mission" (toString id))) ctx := by
  rw [findMission, bind_assoc]
  apply Finds.ask_bind rfl
  exact finds_require_none hm

end

theorem finds_load_regular (hr : ctx.request.pinned = false) (h : loadExecution.Finds w ctx r ctx') :
    load.Finds w ctx r ctx' := by
  apply Finds.get_bind
  rwa [hr, if_neg Bool.false_ne_true]

theorem finds_load_pinned (hr : ctx.request.pinned = true) (h : loadInstance.Finds w ctx r ctx') :
    load.Finds w ctx r ctx' := by
  apply Finds.get_bind
  rwa [hr, if_pos rfl]

theorem finds_load_of_admits (hkeyed : w.books.Keyed) (honce : w.books.PartsOnce) {job : Job}
    (h : w.books.Admits ctx.request job) :
    load.Finds w ctx (.ok ⟨"mission data loaded", some job.receipt⟩) (ctx.withJob job) := by
  cases job with
  | regular m p x =>
    obtain ⟨hr, hm, hp, hactive, hx, huser⟩ := h
    have hid : m.id = ctx.request.target := hkeyed.missions _ _ hm
    apply finds_load_regular hr
    apply Finds.get_bind
    apply finds_findMission_bind hm
    apply Finds.ask_bind rfl
    apply Finds.require_bind ((Books.participantOf_eq_some_iff hkeyed honce).2 (hid ▸ hp))
    apply Finds.check_bind ((ParticipantStatus.isActive_iff _).2 hactive)
    apply Finds.ask_bind rfl
    apply Finds.require_bind ((Books.executionInProgress_eq_some_iff hkeyed).2 hx)
    apply Finds.check_bind (decide_eq_true huser)
    exact .check_bind (decide_eq_true hx.status) rfl
  | pinned m i =>
    obtain ⟨hr, hi, huser, hstatus, hm⟩ := h
    apply finds_load_pinned hr
    apply Finds.get_bind
    apply Finds.ask_bind rfl
    apply Finds.require_bind hi
    apply Finds.check_bind (decide_eq_true huser)
    apply Finds.check_bind (decide_eq_true hstatus)
    exact finds_findMission_bind hm rfl

theorem finds_load_of_refuses (hkeyed : w.books.Keyed) (honce : w.books.PartsOnce) {e : CompletionError}
    (h : w.books.Refuses ctx.request e) : load.Finds w ctx (.error e) ctx := by
  have hfound {m : Mission} (hm : w.books.missions.get? ctx.request.target = some m) {p : Participant}
      (hp : w.books.PartOf ctx.request.target ctx.request.user p) :
      w.books.participantOf m.id ctx.request.user = some p := by
    rw [hkeyed.missions _ _ hm]
    exact (Books.participantOf_eq_some_iff hkeyed honce).2 hp
  cases h with
  | noMission hr hm =>
    apply finds_load_regular hr
    apply Finds.get_bind
    exact finds_findMission_none hm
  | noPart hr hm hp =>
    apply finds_load_regular hr
    apply Finds.get_bind
    apply finds_findMission_bind hm
    rw [← hkeyed.missions _ _ hm] at hp ⊢
    apply Finds.ask_bind rfl
    exact finds_require_none ((Books.participantOf_eq_none_iff hkeyed).2 hp)
  | partLeft hr hm hp hleft =>
    apply finds_load_regular hr
    apply Finds.get_bind
    apply finds_findMission_bind hm
    rw [← hkeyed.missions _ _ hm]
    apply Finds.ask_bind rfl
    apply Finds.require_bind (hfound hm hp)
    refine finds_check_fails ?_
    rcases hleft with hleft | hleft <;> rw [hleft] <;> rfl
  | noneOpen hr hm hp hactive hx =>
    apply finds_load_regular hr
    apply Finds.get_bind
    apply finds_findMission_bind hm
    rw [← hkeyed.missions _ _ hm]
    apply Finds.ask_bind rfl
    apply Finds.require_bind (hfound hm hp)
    apply Finds.check_bind hactive
    apply Finds.ask_bind rfl
    exact finds_require_none ((Books.executionInProgress_eq_none_iff hkeyed).2 hx)
  | executionOfOther hr hm hp hactive hx huser =>
    apply finds_load_regular hr
    apply Finds.get_bind
    apply finds_findMission_bind hm
    apply Finds.ask_bind rfl
    apply Finds.require_bind (hfound hm hp)
    apply Finds.check_bind hactive
    apply Finds.ask_bind rfl
    apply Finds.require_bind ((Books.executionInProgress_eq_some_iff hkeyed).2 hx)
    exact finds_check_fails (decide_eq_false huser)
  | noInstance hr hi =>
    apply finds_load_pinned hr
    apply Finds.get_bind
    apply Finds.ask_bind rfl
    exact finds_require_none hi
  | instanceOfOther hr hi huser =>
    apply finds_load_pinned hr
    apply Finds.get_bind
    apply Finds.ask_bind rfl
    apply Finds.require_bind hi
    exact finds_check_fails (decide_eq_false huser)
  | instanceNotOpen hr hi huser hstatus =>
    apply finds_load_pinned hr
    apply Finds.get_bind
    apply Finds.ask_bind rfl
    apply Finds.require_bind hi
    apply Finds.check_bind (decide_eq_true huser)
    exact finds_check_fails (decide_eq_false hstatus)
  | noMissionOfInstance hr hi huser hstatus hm =>
    apply finds_load_pinned hr
    apply Finds.get_bind
    apply Finds.ask_bind rfl
    apply Finds.require_bind hi
    apply Finds.check_bind (decide_eq_true huser)
    apply Finds.check_bind (decide_eq_true hstatus)
    exact finds_findMission_none hm

/-- Loading in a world in memory, from any context. It succeeds exactly if the request is admitted, and loads the job
that it is admitted for. Otherwise it rejects the request for the first condition that fails, with the context as it
was. It makes no call that writes, and the world stays as it is. -/
theorem execute_succeeds_iff_admits (w : World) (hkeyed : w.books.Keyed) (honce : w.books.PartsOnce) (ctx : Context) :
    ∃ result ctx', ((step.execute.run ctx).serve (World.server.noting Note.writes)).run (w, []) =
        ((result, ctx'), w, []) ∧
      (result.isSuccess = true ↔ ∃ job, w.books.Admits ctx.request job) ∧
      (∀ job, w.books.Admits ctx.request job → ctx' = ctx.withJob job ∧ ctx'.Holds job) ∧
      (result.isSuccess = false → ∃ e, w.books.Refuses ctx.request e) ∧
      ∀ e, w.books.Refuses ctx.request e →
        result = .rejected ("failed to load mission data: " ++ e.message) e ∧ ctx' = ctx := by
  have hadmits {job : Job} (h : w.books.Admits ctx.request job) :
      ((step.execute.run ctx).serve (World.server.noting Note.writes)).run (w, []) =
        ((.success "mission data loaded" (some job.receipt), ctx.withJob job), w, []) :=
    (finds_load_of_admits hkeyed honce h).settle
  have hrefuses {e : CompletionError} (h : w.books.Refuses ctx.request e) :
      ((step.execute.run ctx).serve (World.server.noting Note.writes)).run (w, []) =
        ((.rejected ("failed to load mission data: " ++ e.message) e, ctx), w, []) := by
    refine (finds_load_of_refuses hkeyed honce h).settle.trans ?_
    dsimp only
    rw [h.isValidation, if_pos rfl]
    rfl
  have hexclusive {job : Job} {e : CompletionError} (h : w.books.Admits ctx.request job)
      (h' : w.books.Refuses ctx.request e) : False := by
    have hresult := congrArg (·.1.1) ((hadmits h).symm.trans (hrefuses h'))
    cases hresult
  rcases Books.admits_or_refuses hkeyed ctx.request with ⟨job, h⟩ | ⟨e, h⟩
  · refine ⟨_, _, hadmits h, iff_of_true rfl ⟨job, h⟩, fun job' h' => ?_, nofun, fun e h' => (hexclusive h h').elim⟩
    have hctx : ctx.withJob job = ctx.withJob job' := congrArg (·.1.2) ((hadmits h).symm.trans (hadmits h'))
    exact ⟨hctx, hctx ▸ ctx.holds_withJob job'⟩
  · refine ⟨_, _, hrefuses h, iff_of_false nofun fun ⟨job, h'⟩ => hexclusive h' h,
      fun job h' => (hexclusive h' h).elim, fun _ => ⟨e, h⟩, fun e' h' => ?_⟩
    exact ⟨congrArg (·.1.1) ((hrefuses h).symm.trans (hrefuses h')), rfl⟩

end Loading

namespace Fixture

def home : World := plain.foldl World.disturb {}

def loading (user : String) : (CompletionResult × Context) × World × List Call :=
  ((Loading.step.execute.run (.start ⟨user, 100, false, false⟩)).serve (World.server.noting Note.writes)).run (home, [])

end Fixture

open Fixture in
theorem Loading.execute_succeeds_iff_admits_home :
    (∃ result ctx', loading "user-1" = ((result, ctx'), home, []) ∧ result.isSuccess = true ∧
      ctx'.Holds (.regular mission participant execution)) ∧
    ∃ result ctx', loading "user-2" = ((result, ctx'), home, []) ∧
      result = .rejected "failed to load mission data: user 'user-2' is not participating in mission 100"
        (.notParticipant 100 "user-2") ∧ ctx' = .start ⟨"user-2", 100, false, false⟩ := by
  have hkeyed : home.books.Keyed := World.keyed_foldl_disturb .empty plain
  have honly (p : Participant) (hp : home.books.participants.get? p.id = some p) : p = participant := by
    have hmem : p ∈ home.books.participants.values := Table.mem_values_iff.2 ⟨p.id, hp⟩
    exact List.mem_singleton.1 hmem
  have honce : home.books.PartsOnce := .of_stored (by decide +kernel)
  have hadmits : home.books.Admits ⟨"user-1", 100, false, false⟩ (.regular mission participant execution) :=
    ⟨rfl, by decide +kernel, ⟨by decide +kernel, rfl, rfl⟩, .inr (.inl rfl),
      Books.firstOpen_of_executionInProgress hkeyed (by decide +kernel), rfl⟩
  have hrefuses : home.books.Refuses ⟨"user-2", 100, false, false⟩ (.notParticipant 100 "user-2") := by
    refine .noPart rfl (m := mission) (by decide +kernel) fun p hp => ?_
    exact absurd ((congrArg Participant.user (honly p hp.stored)).symm.trans hp.user) (by decide)
  obtain ⟨result, ctx', hrun, hiff, hloads, -⟩ :=
    Loading.execute_succeeds_iff_admits home hkeyed honce (.start ⟨"user-1", 100, false, false⟩)
  obtain ⟨result', ctx'', hrun', -, -, -, hrejects⟩ :=
    Loading.execute_succeeds_iff_admits home hkeyed honce (.start ⟨"user-2", 100, false, false⟩)
  exact ⟨⟨result, ctx', hrun, hiff.2 ⟨_, hadmits⟩, (hloads _ hadmits).2⟩,
    ⟨result', ctx'', hrun', hrejects _ hrefuses⟩⟩

end Missions
