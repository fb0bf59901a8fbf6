import Missions.Completion.Loading
import Missions.Proofs.Completion.Claims.Standing
import Missions.Proofs.Completion.Footprint
import Missions.Proofs.Completion.Outcome

namespace Missions

namespace Turn

def net (user : String) : (c : Call) → Except CompletionError c.Answer → Int
  | .grantExperience grant, .ok _ => if grant.user = user then grant.amount else 0
  | .subtractExperience grant, .ok _ => if grant.user = user then -grant.amount else 0
  | _, _ => 0

/-- A run that has granted finds the total that it had read before. -/
def findsBefore (here : Context) : (c : Call) → Except CompletionError c.Answer → Bool
  | .currentExperience _, .ok current =>
    here.kept Snapshot.userTotalBefore == some current.total && (here.kept Snapshot.userTotalAfter).isSome
  | _, _ => false

/-- What a run leaves in the total when it finds the total from before its grant. -/
def left (turn : Turn) : Int :=
  if findsBefore turn.here turn.call turn.answer then (turn.here.kept Snapshot.userGranted).getD 0 else 0

def missionFound : (c : Call) → Except CompletionError c.Answer → Option Mission
  | .findMission _, .ok found => found
  | _, _ => none

end Turn

/-- What a run has done to its user's experience, and the mission that it found last. -/
structure Tally where
  found : Option Mission := none
  granted : Int := 0
  /-- What it has left in the total although it was to take it back. -/
  left : Int := 0
  /-- It has found the total from before its grant when it was to take the grant back. -/
  strayed : Bool := false
  deriving DecidableEq

namespace Tally

def after (user : String) (g : Tally) (turn : Turn) : Tally where
  found := (Turn.missionFound turn.call turn.answer).or g.found
  granted := g.granted + Turn.net user turn.call turn.answer
  left := g.left + turn.left
  strayed := g.strayed || Turn.findsBefore turn.here turn.call turn.answer

def protocol (user : String) : Protocol Context Tally where
  allowed _ _ _ := True
  answered here g c answer g' := g' = g.after user ⟨here, c, answer⟩

def concerns : Method → Bool
  | .currentExperience | .grantExperience | .subtractExperience | .findMission => true
  | _ => false

variable {user : String} {g : Tally} {ctx : Context} {c : Call} {answer : Except CompletionError c.Answer}

theorem after_of_other (h : concerns c.method = false) (answer : Except CompletionError c.Answer) :
    g.after user ⟨ctx, c, answer⟩ = g := by
  cases c <;> first | (cases h; done) | simp [after, Turn.missionFound, Turn.net, Turn.left, Turn.findsBefore]

theorem after_error (e : CompletionError) : g.after user ⟨ctx, c, .error e⟩ = g := by
  cases c <;> simp [after, Turn.missionFound, Turn.net, Turn.left, Turn.findsBefore]

theorem after_grant (grant : ExperienceGrant) (huser : grant.user = user) (reached : Experience) :
    g.after user ⟨ctx, .grantExperience grant, .ok reached⟩ = { g with granted := g.granted + grant.amount } := by
  simp [after, Turn.missionFound, Turn.net, Turn.left, Turn.findsBefore, huser]

theorem after_subtract (grant : ExperienceGrant) (huser : grant.user = user) (reached : Experience) :
    g.after user ⟨ctx, .subtractExperience grant, .ok reached⟩ = { g with granted := g.granted - grant.amount } := by
  simp [after, Turn.missionFound, Turn.net, Turn.left, Turn.findsBefore, huser, Int.sub_eq_add_neg]

theorem after_current {name : String} {current : Experience}
    (h : ctx.kept Snapshot.userTotalAfter = none ∨ ctx.kept Snapshot.userTotalBefore ≠ some current.total) :
    g.after user ⟨ctx, .currentExperience name, .ok current⟩ = g := by
  have hno : Turn.findsBefore ctx (.currentExperience name) (.ok current) = false := by
    rcases h with hafter | hbefore
    · simp [Turn.findsBefore, hafter]
    · simp [Turn.findsBefore, hbefore]
  simp [after, Turn.missionFound, Turn.net, Turn.left, hno]

theorem after_strayed {name : String} {current : Experience} {amount : Int}
    (hbefore : ctx.kept Snapshot.userTotalBefore = some current.total)
    (hafter : (ctx.kept Snapshot.userTotalAfter).isSome) (hgranted : ctx.kept Snapshot.userGranted = some amount) :
    g.after user ⟨ctx, .currentExperience name, .ok current⟩ = { g with left := g.left + amount, strayed := true } := by
  have hfinds : Turn.findsBefore ctx (.currentExperience name) (.ok current) = true := by
    simp [Turn.findsBefore, hbefore, hafter]
  simp [after, Turn.missionFound, Turn.net, Turn.left, hfinds, hgranted]

theorem after_found {id : Int} (m : Mission) :
    g.after user ⟨ctx, .findMission id, .ok (some m)⟩ = { g with found := some m } := by
  simp [after, Turn.missionFound, Turn.net, Turn.left, Turn.findsBefore]

theorem after_notFound {id : Int} : g.after user ⟨ctx, .findMission id, .ok none⟩ = g := by
  simp [after, Turn.missionFound, Turn.net, Turn.left, Turn.findsBefore]

/-! ### Where a run stands -/

structure Begun (r : Request) (ctx : Context) (g : Tally) : Prop where
  request : ctx.request = r
  unmarked : ctx.kept Snapshot.userTotalAfter = none
  tally : g = { found := g.found }

structure Loaded (r : Request) (m : Mission) (ctx : Context) (g : Tally) : Prop extends Begun r ctx g where
  found : g.found = some m
  brief : ctx.brief = .of r m

structure Granted (r : Request) (m : Mission) (ctx : Context) (g : Tally) : Prop where
  brief : ctx.brief = .of r m
  tally : g = { found := some m, granted := max m.experience 0 }
  unmarked : m.experience ≤ 0 → ctx.kept Snapshot.userTotalAfter = none
  marked : 0 < m.experience → ctx.kept Snapshot.userGranted = some m.experience ∧
    (ctx.kept Snapshot.userTotalBefore).isSome ∧ (ctx.kept Snapshot.userTotalAfter).isSome

structure Settled (g : Tally) : Prop where
  granted : g.granted = g.left
  nonneg : 0 ≤ g.left
  left : g.left = 0 ↔ g.strayed = false

/-- How a run ends: it has granted what it reports, or taken it back, or says that it could not. -/
structure Final (outcome : Except Interruption (Except CompletionError Completion × AuditLog)) (g : Tally) : Prop where
  completed : ∀ completion audit, outcome = .ok (.ok completion, audit) →
    g.granted = max completion.userEarned 0 ∧ g.left = 0 ∧ g.strayed = false ∧
      ∃ m, g.found = some m ∧ completion.mission = m.id ∧ completion.userEarned = m.experience
  aborted : ∀ e audit, outcome = .ok (.error e, audit) → UserReward.step.name ∉ e.stepsNotUndone → Settled g

variable {r : Request} {m : Mission}

theorem Begun.settled (h : Begun r ctx g) : Settled g where
  granted := by rw [h.tally]
  nonneg := h.tally ▸ Int.le_refl 0
  left := by rw [h.tally]; exact ⟨fun _ => rfl, fun _ => rfl⟩

theorem tolerates_of_marks {K : Context → Tally → Prop} {methods : Method → Bool}
    {changes : Context → Context → Prop} (hmethods : ∀ m ∈ Method.all, methods m = true → concerns m = false)
    (hchange : ∀ ctx ctx' g, K ctx g → changes ctx ctx' → K ctx' g) :
    Procedure.Tolerates (protocol user) K methods changes where
  call := by
    rintro ctx g c h hc
    refine ⟨trivial, ?_⟩
    rintro answer _ rfl
    rwa [after_of_other (hmethods _ (Method.mem_all _) hc)]
  change {ctx ctx' g} h hchanges := hchange ctx ctx' g h hchanges

end Tally

open Procedure

namespace Loading

open Tally

variable {user : String} {r : Request} {ctx : Context} {g : Tally}

theorem begun_after {c : Call} (hc : c.method = .findMission ∨ concerns c.method = false) (h : Begun r ctx g)
    (answer : Except CompletionError c.Answer) : Begun r ctx (g.after user ⟨ctx, c, answer⟩) := by
  rcases hc with hc | hc
  · cases c <;> cases hc
    rcases answer with e | found | m
    · rwa [after_error]
    · rwa [after_notFound]
    · rw [after_found, h.tally]
      exact ⟨h.request, h.unmarked, rfl⟩
  · rwa [after_of_other hc]

theorem preserves_ask_begun {c : Call} (hc : c.method = .findMission ∨ concerns c.method = false) :
    Preserves (protocol user) (Begun r) (ask c) := by
  intro ctx g h
  refine meets_ask.2 ⟨trivial, ?_⟩
  rintro answer _ rfl
  exact begun_after hc h answer

theorem preserves_ask_found {m : Mission} {c : Call} (hc : concerns c.method = false) :
    Preserves (protocol user) (fun ctx g => Begun r ctx g ∧ g.found = some m) (ask c) := by
  intro ctx g h
  refine meets_ask.2 ⟨trivial, ?_⟩
  rintro answer _ rfl
  rwa [after_of_other hc]

theorem meets_findMission {id : Int} (h : Begun r ctx g) : (findMission id).Meets (protocol user) (fun result ctx g =>
    Begun r ctx g ∧ ∀ m, result = .ok m → g.found = some m) ctx g := by
  rw [findMission, meets_bind, meets_ask]
  refine ⟨trivial, ?_⟩
  rintro answer _ rfl
  have hbegun : Begun r ctx (g.after user ⟨ctx, .findMission id, answer⟩) := begun_after (.inl rfl) h answer
  rcases answer with e | found | m
  · refine ⟨hbegun, fun m hm => ?_⟩
    cases hm
  · refine ⟨hbegun, fun m hm => ?_⟩
    cases hm
  · refine ⟨hbegun, fun m' hm => ?_⟩
    cases hm
    rw [after_found]

theorem meets_loadExecution_tally (h : Begun r ctx g) : loadExecution.Meets (protocol user)
    (Either (fun ctx g => ∃ m, Loaded r m ctx g) fun _ => Begun r) ctx g := by
  rw [loadExecution, meets_bind, meets_get]
  dsimp only
  rw [meets_bind]
  refine (meets_findMission h).mono fun result ctx g hfound => ?_
  obtain ⟨hbegun, hfound⟩ := hfound
  cases result with
  | error e => exact hbegun
  | ok m =>
    have hfailed (e : CompletionError) (ctx : Context) (g : Tally) (h : Begun r ctx g ∧ g.found = some m) :=
      h.1
    refine (preserves_ask_found rfl).meets_bind ⟨hbegun, hfound m rfl⟩ hfailed fun p ctx g h => ?_
    refine (preserves_require _ _).meets_bind h hfailed fun p ctx g h => ?_
    refine (preserves_check _ _).meets_bind h hfailed fun _ ctx g h => ?_
    refine (preserves_ask_found rfl).meets_bind h hfailed fun x ctx g h => ?_
    refine (preserves_require _ _).meets_bind h hfailed fun x ctx g h => ?_
    refine (preserves_check _ _).meets_bind h hfailed fun _ ctx g h => ?_
    refine (preserves_check _ _).meets_bind h hfailed fun _ ctx g h => ?_
    rw [meets_bind, meets_modify]
    obtain ⟨⟨hrequest, hunmarked, htally⟩, hfound⟩ := h
    refine ⟨m, ⟨hrequest, ?_, htally⟩, hfound, ?_⟩
    · rwa [Context.kept_withExecution]
    · rw [← hrequest]
      rfl

theorem meets_loadInstance_tally (h : Begun r ctx g) : loadInstance.Meets (protocol user)
    (Either (fun ctx g => ∃ m, Loaded r m ctx g) fun _ => Begun r) ctx g := by
  have hfailed (e : CompletionError) (ctx : Context) (g : Tally) (h : Begun r ctx g) := h
  rw [loadInstance, meets_bind, meets_get]
  dsimp only
  refine (preserves_ask_begun (.inr rfl)).meets_bind h hfailed fun i ctx g h => ?_
  refine (preserves_require _ _).meets_bind h hfailed fun i ctx g h => ?_
  refine (preserves_check _ _).meets_bind h hfailed fun _ ctx g h => ?_
  refine (preserves_check _ _).meets_bind h hfailed fun _ ctx g h => ?_
  rw [meets_bind]
  refine (meets_findMission h).mono fun result ctx g hfound => ?_
  obtain ⟨hbegun, hfound⟩ := hfound
  cases result with
  | error e => exact hbegun
  | ok m =>
    dsimp only
    rw [meets_bind, meets_modify]
    obtain ⟨hrequest, hunmarked, htally⟩ := hbegun
    refine ⟨m, ⟨hrequest, ?_, htally⟩, hfound m rfl, ?_⟩
    · rwa [Context.kept_withInstance]
    · rw [← hrequest]
      rfl

theorem meets_load_tally (h : Begun r ctx g) : load.Meets (protocol user)
    (Either (fun ctx g => ∃ m, Loaded r m ctx g) fun _ => Begun r) ctx g := by
  rw [load, meets_bind, meets_get]
  dsimp only
  split
  · exact meets_loadInstance_tally h
  · exact meets_loadExecution_tally h

end Loading

namespace UserReward

open Tally

variable {user : String} {r : Request} {m : Mission} {ctx : Context} {g : Tally}

structure LookedUp (r : Request) (m : Mission) (ctx : Context) (g : Tally) : Prop extends Loaded r m ctx g where
  before : (ctx.kept Snapshot.userTotalBefore).isSome

theorem tolerates_lookedUp : Tolerates (protocol user) (LookedUp r m) (fun _ => false)
    (Context.MarkedOnly [Snapshot.userLevelBefore.name]) := by
  refine tolerates_of_marks (by decide) fun ctx ctx' g h hmarked => ?_
  have hrequest : ctx'.request = ctx.request := congrArg Context.Brief.request hmarked.brief
  refine ⟨⟨⟨hrequest.trans h.request, ?_, h.tally⟩, h.found, hmarked.brief.trans h.brief⟩, ?_⟩
  · rw [hmarked.kept _ (by decide)]
    exact h.unmarked
  · rw [hmarked.kept _ (by decide)]
    exact h.before

theorem meets_grant_tally (huser : r.user = user) (h : Loaded r m ctx g) :
    grant.Meets (protocol user) (Either (Granted r m) fun _ => Loaded r m) ctx g := by
  have hearned : ctx.userEarned = m.experience := congrArg Context.Brief.userEarned h.brief
  have htally : g = { found := some m } := h.found ▸ h.tally
  have hlooked : Loaded r m ctx g := h
  obtain ⟨⟨hrequest, hunmarked, -⟩, hfound, hbrief⟩ := h
  rw [grant, meets_bind, meets_get]
  dsimp only
  rw [hearned]
  split
  · next hnone =>
    have hgranted : max m.experience 0 = 0 := Int.max_eq_right hnone
    exact ⟨hbrief, by rw [htally, hgranted], fun _ => hunmarked, fun hsome => by omega⟩
  · next hsome =>
    have hgranted : max m.experience 0 = m.experience := by omega
    rw [meets_bind, meets_ask]
    refine ⟨trivial, ?_⟩
    rintro answer _ rfl
    cases answer with
    | error e =>
      rw [after_error]
      exact hlooked
    | ok before =>
      rw [after_current (.inl hunmarked)]
      dsimp only
      rw [meets_bind, meets_keep]
      have hread : LookedUp r m (ctx.keep Snapshot.userTotalBefore before.total) g := by
        refine ⟨⟨⟨hrequest, ?_, htally ▸ rfl⟩, hfound, hbrief⟩, ?_⟩
        · rw [ctx.kept_keep_of_ne (by decide)]
          exact hunmarked
        · rw [Context.kept, Context.keep, Snapshots.get?_insert_self]
          rfl
      have hfailed (e : CompletionError) (ctx : Context) (g : Tally) (h : LookedUp r m ctx g) := h.toLoaded
      refine (tolerates_lookedUp.keep (by decide) _).meets_bind hread hfailed fun _ ctx' g' h => ?_
      refine (tolerates_lookedUp.modify fun ctx => ctx.markedOnly_withLevelBefore _).meets_bind h hfailed
        fun _ ctx' g' h => ?_
      rw [meets_bind, meets_ask]
      refine ⟨trivial, ?_⟩
      rintro answer _ rfl
      cases answer with
      | error e =>
        -- the total from before stays kept, which does not matter: the next attempt keeps it again
        rw [after_error]
        exact h.toLoaded
      | ok reached =>
        have hgrantee : (grantOf ctx m.experience).user = user := by
          rw [← huser, ← hrequest]
          rfl
        rw [after_grant _ hgrantee]
        simp only [meets_bind, meets_keep, meets_modify, meets_pure]
        refine ⟨?_, ?_, fun hnone => absurd hnone hsome, fun _ => ⟨?_, ?_, ?_⟩⟩
        · exact h.brief
        · rw [h.tally, h.found, hgranted]
          simp [grantOf]
        · simp (disch := decide) only [Context.kept, Context.keep, Context.withLevelAfter, Snapshots.get?_insert_self]
        · have hbefore := h.before
          simpa (disch := decide) only [Context.kept, Context.keep, Context.withLevelAfter,
            Snapshots.get?_insert_of_ne] using hbefore
        · simp (disch := decide) only [Context.kept, Context.keep, Context.withLevelAfter,
            Snapshots.get?_insert_of_ne, Snapshots.get?_insert_self, Option.isSome_some]

theorem meets_revert_tally (huser : r.user = user) (h : Granted r m ctx g) :
    revert.Meets (protocol user) (Either (fun _ => Tally.Settled) fun _ _ _ => True) ctx g := by
  obtain ⟨hbrief, rfl, hunmarked, hmarked⟩ := h
  rw [revert, meets_bind, meets_get]
  dsimp only
  -- the snapshots are all there exactly if something was granted; then the total that is found now decides
  split
  · next before after amount hbefore hafter hgranted =>
    have hpositive : 0 < m.experience := by
      rcases Int.lt_or_le 0 m.experience with hpositive | hnone
      · exact hpositive
      · rw [hunmarked hnone] at hafter
        cases hafter
    have hamount : amount = m.experience := Option.some.inj (hgranted.symm.trans (hmarked hpositive).1)
    have hmax : max m.experience 0 = m.experience := by omega
    rw [meets_bind, meets_ask]
    refine ⟨trivial, ?_⟩
    rintro answer _ rfl
    cases answer with
    | error e => trivial
    | ok current =>
      dsimp only
      split
      · next hfound =>
        have hsame : ctx.kept Snapshot.userTotalBefore = some current.total := hfound ▸ hbefore
        rw [after_strayed hsame (by rw [hafter]; rfl) hgranted, hamount]
        refine ⟨?_, ?_, fun hnone => ?_, nofun⟩
        · dsimp only
          omega
        · dsimp only
          omega
        · dsimp only at hnone
          omega
      · next hmoved =>
        rw [after_current (.inr (by rw [hbefore]; exact fun heq => hmoved (Option.some.inj heq).symm))]
        split
        · trivial
        · rw [meets_bind, meets_ask]
          refine ⟨trivial, ?_⟩
          rintro answer _ rfl
          cases answer with
          | error e => trivial
          | ok restored =>
            have hgrantee : (grantOf ctx amount).user = user := by
              rw [← huser, ← show ctx.request = r from congrArg Context.Brief.request hbrief]
              rfl
            rw [after_subtract _ hgrantee]
            constructor <;> simp [grantOf, hamount, hmax]
  · next hmissing =>
    have hnone : ¬ 0 < m.experience := by
      intro hpositive
      obtain ⟨hgranted, hbefore, hafter⟩ := hmarked hpositive
      obtain ⟨before, hbefore⟩ := Option.isSome_iff_exists.1 hbefore
      obtain ⟨after, hafter⟩ := Option.isSome_iff_exists.1 hafter
      exact hmissing before after m.experience hbefore hafter hgranted
    have hmax : max m.experience 0 = 0 := by omega
    constructor <;> simp [hmax]

end UserReward

namespace Completion

open Tally

variable {user : String} {policy : CompletionStep → RetryPolicy} {r : Request} {m : Mission}

/-- A run that could not take its grant back says so, and else it has. -/
def TookBack (names : List String) (_ : Option CompletionError) (_ : Context) (g : Tally) : Prop :=
  UserReward.step.name ∈ names ∨ Tally.Settled g

theorem tolerates_granted {methods : Method → Bool} {names : List String}
    (hmethods : ∀ m ∈ Method.all, methods m = true → concerns m = false)
    (hnames : ∀ name ∈ UserReward.marks, name ∉ names) :
    Tolerates (protocol user) (Granted r m) methods (Context.Marked names) := by
  refine tolerates_of_marks hmethods fun ctx ctx' g h hmarked => ?_
  refine ⟨hmarked.brief.trans h.brief, h.tally, ?_, ?_⟩
  · rw [hmarked.kept _ (hnames _ (by decide))]
    exact h.unmarked
  · rw [hmarked.kept _ (hnames _ (by decide)), hmarked.kept _ (hnames _ (by decide)),
      hmarked.kept _ (hnames _ (by decide))]
    exact h.marked

theorem visits_rewarded : Run.Visits (protocol user) policy [Advance.step, Closing.step, GuildReward.step, Sharing.step]
    (Granted r m) (Granted r m) fun _ => Granted r m := by
  refine .of_keeps fun step hstep => ?_
  simp only [List.mem_cons, List.not_mem_nil, or_false] at hstep
  rcases hstep with rfl | rfl | rfl | rfl
  · exact Advance.keeps (tolerates_granted (by decide) (by decide))
  · exact Closing.keeps (tolerates_granted (by decide) (by decide))
  · exact GuildReward.keeps (tolerates_granted (by decide) (by decide)).only
  · exact Sharing.keeps (tolerates_granted (by decide) (by decide)).only

theorem visits_rewarding_tally (huser : r.user = user) : Run.Visits (protocol user) policy
    [UserReward.step, Advance.step, Closing.step, GuildReward.step, Sharing.step] (Loaded r m) (Granted r m)
    (Undone TookBack) := by
  have hgrant (ctx : Context) (g : Tally) (h : Loaded r m ctx g) := UserReward.meets_grant_tally huser h
  refine visits_settled rfl rfl rfl (fun _ _ _ => rfl) hgrant (fun _ _ _ _ h => h) visits_rewarded
    (V := fun _ _ => Granted r m) (fun names cause ctx g h => ?_) fun e ctx g h => .inr h.toBegun.settled
  refine (UserReward.meets_revert_tally huser h).mono fun result ctx g hr => ?_
  cases result with
  | ok => exact .inr hr
  | error e => exact .inl (by simp)

variable (policy) in
theorem visits_all_tally (huser : r.user = user) : Run.Visits (protocol user) policy
    [Loading.step, UserReward.step, Advance.step, Closing.step, GuildReward.step, Sharing.step] (Begun r)
    (fun ctx g => ∃ m, Granted r m ctx g) (Undone TookBack) := by
  have hrest : Run.Visits (protocol user) policy
      [UserReward.step, Advance.step, Closing.step, GuildReward.step, Sharing.step]
      (fun ctx g => ∃ m, Loaded r m ctx g) (fun ctx g => ∃ m, Granted r m ctx g) (Undone TookBack) :=
    .exists fun m => (visits_rewarding_tally huser).mono (fun _ _ h => h) (fun _ _ h => ⟨m, h⟩) fun _ _ _ h => h
  exact visits_settled rfl rfl Loading.compensate_eq_settle (fun _ _ _ => rfl) (fun _ _ h => Loading.meets_load_tally h)
    (fun _ _ _ _ h => h) hrest
    (fun _ _ _ _ h => h) fun e ctx g h => .inr h.settled

theorem obeys_complete_tally (o : Operation) (request : Request) (huser : request.user = user) :
    (o.complete request).Obeys (protocol user) Final {} := by
  have hvisits := visits_all_tally (r := o.effective request) o.saga.policyFor huser
  rw [← o.steps_saga] at hvisits
  refine o.obeys_complete hvisits request ⟨rfl, rfl, rfl⟩ (Q := Final) ?_ ?_ ?_
  · rintro ctx g report audit ⟨m, hbrief, rfl, -⟩
    have hmission : ctx.missionId = some m.id :=
      congrArg (fun b : Context.Brief => b.mission.map Mission.id) hbrief
    have hearned : ctx.userEarned = m.experience := congrArg Context.Brief.userEarned hbrief
    constructor
    · intro completion audit' hok
      simp only [ofRun, hmission, Except.ok.injEq, Prod.mk.injEq] at hok
      obtain ⟨rfl, -⟩ := hok
      exact ⟨by rw [hearned], rfl, rfl, m, rfl, rfl, hearned⟩
    · intro e audit' herror
      simp [ofRun, hmission] at herror
  · intro a ctx g audit h
    constructor
    · intro completion audit' hok
      simp at hok
    · intro e audit' herror hclean
      simp only [Except.ok.injEq, Prod.mk.injEq, Except.error.injEq] at herror
      obtain ⟨rfl, -⟩ := herror
      rw [CompletionError.stepsNotUndone, CompletionError.undoFailures_ofAborted] at hclean
      exact h.resolve_left hclean
  · intro i g _
    constructor <;> intros <;> simp_all

end Completion

end Missions
