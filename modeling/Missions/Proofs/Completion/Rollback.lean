import Missions.Proofs.Completion.Effect
import Missions.Proofs.Completion.Found

/-! A completion that fails while nobody else touches the books leaves them as they were. What it could not put back,
its error names. -/

namespace Missions

namespace Books

structure SameRecords (before after : Books) : Prop where
  executions : after.executions = before.executions
  participants : after.participants = before.participants
  instances : after.instances = before.instances

/-- What is left of a closed record that could not be opened again. An execution and its participant are put back one
by one, an instance is not put back at all. -/
def RecordLeft (before after : Books) : Job → Prop
  | .regular m p x =>
    (after.executions = before.executions ∨
      after.executions = before.executions.insert x.id { x with status := .completed }) ∧
    (after.participants = before.participants ∨
      after.participants = before.participants.insert p.id (before.advanced m p x)) ∧
    after.instances = before.instances
  | .pinned _ i => after.executions = before.executions ∧ after.participants = before.participants ∧
      after.instances = before.instances.insert i.id { i with status := .completed }

/-- The execution is completed, and no other record has changed. -/
structure ClaimLeft (before after : Books) (x : Execution) : Prop where
  executions : after.executions = before.executions.insert x.id { x with status := .completed }
  participants : after.participants = before.participants
  instances : after.instances = before.instances

/-- The records after a failed completion of a request, with the names of the steps that could not be undone and the
error that stopped it. They have changed only as these tell. -/
structure RecordsRolledBack (before after : Books) (r : Request) (names : List String)
    (cause : Option CompletionError) : Prop where
  undone : Advance.step.name ∉ names → Closing.step.name ∉ names → cause.bind (·.leftClaimed) = none →
    before.SameRecords after
  notUndone : Advance.step.name ∈ names ∨ Closing.step.name ∈ names →
    ∃ job, before.Selects r job ∧ job.step.name ∈ names ∧ before.RecordLeft after job
  stuck : ∀ id, cause.bind (·.leftClaimed) = some id →
    ∃ m p x, before.Selects r (.regular m p x) ∧ x.id = id ∧ before.ClaimLeft after x

theorem RecordsRolledBack.of_sameRecords {before books after : Books} {r : Request} {names : List String}
    {cause : Option CompletionError} (h : before.RecordsRolledBack books r names cause)
    (hsame : books.SameRecords after) : before.RecordsRolledBack after r names cause := by
  obtain ⟨hexecutions, hparticipants, hinstances⟩ := hsame
  refine ⟨fun hadvance hclosing hnone => ?_, fun hnames => ?_, fun id hid => ?_⟩
  · obtain ⟨hx, hp, hi⟩ := h.undone hadvance hclosing hnone
    exact ⟨hexecutions.trans hx, hparticipants.trans hp, hinstances.trans hi⟩
  · obtain ⟨job, hjob, hname, hleft⟩ := h.notUndone hnames
    refine ⟨job, hjob, hname, ?_⟩
    cases job <;> rwa [RecordLeft, hexecutions, hparticipants, hinstances]
  · obtain ⟨m, p, x, hjob, hid, hx, hp, hi⟩ := h.stuck id hid
    exact ⟨m, p, x, hjob, hid, hexecutions.trans hx, hparticipants.trans hp, hinstances.trans hi⟩

/-- The books after a failed completion of a request, with the names of the steps that could not be undone and the
error that stopped it. -/
structure RolledBack (before after : Books) (r : Request) (names : List String) (cause : Option CompletionError) :
    Prop where
  /-- Guilds' totals, published entries, shared flags and missions are the same. -/
  aside : after = { before with
    userTotals := after.userTotals, executions := after.executions, participants := after.participants
    instances := after.instances }
  otherUsers : ∀ other, other ≠ r.user → after.userTotal other = before.userTotal other
  userUndone : UserReward.step.name ∉ names → after.userTotal r.user = before.userTotal r.user
  userNotUndone : UserReward.step.name ∈ names → ∃ job, before.Selects r job ∧ 0 < job.mission.experience ∧
    after.userTotal r.user = before.userTotal r.user + job.mission.experience
  records : before.RecordsRolledBack after r names cause

end Books

namespace Completion

variable {before after : Books} {r : Request} {job : Job} {names : List String} {cause : Option CompletionError}

def Plain (e : CompletionError) : Prop := e.leftClaimed = none

theorem recordsRolledBack_same (h : before.SameRecords after) {e : CompletionError} (he : Plain e) :
    before.RecordsRolledBack after r [] (some e) where
  undone _ _ _ := h
  notUndone hnames := by simp at hnames
  stuck id hid := absurd (he.symm.trans hid) (by simp)

theorem PartlyOpen.recordLeft (hkeyed : before.Keyed) (hjob : before.Selects r job) {totals : Table String Int}
    (h : PartlyOpen { before with userTotals := totals } job after) : before.RecordLeft after job := by
  cases job with
  | pinned m i =>
    obtain rfl := h
    exact ⟨rfl, rfl, rfl⟩
  | regular m p x =>
    obtain ⟨hopen, -, -⟩ := Books.executionInProgress_eq_some hkeyed hjob.2.2.2
    obtain ⟨hstored, -, -⟩ := Books.participantOf_eq_some hkeyed hjob.2.2.1
    obtain rfl | rfl | rfl := h
    · exact ⟨.inr rfl, .inr rfl, rfl⟩
    · exact ⟨.inl ((Table.insert_insert ..).trans (Table.insert_eq_self hopen)), .inr rfl, rfl⟩
    · exact ⟨.inr rfl, .inl ((Table.insert_insert ..).trans (Table.insert_eq_self hstored)), rfl⟩

theorem Reopened.recordsRolledBack (hkeyed : before.Keyed) (hjob : before.Selects r job) {totals : Table String Int}
    (h : Reopened Plain { before with userTotals := totals } job names cause after) :
    before.RecordsRolledBack after r names cause := by
  cases h with
  | clean he => exact recordsRolledBack_same (by constructor <;> rfl) he
  | partly he hpartly =>
    have hleft := PartlyOpen.recordLeft hkeyed hjob hpartly
    refine ⟨fun hadvance hclosing => ?_, fun _ => ⟨job, hjob, List.mem_singleton_self _, hleft⟩,
      fun id hid => absurd (he.symm.trans hid) (by simp)⟩
    cases job with
    | regular => exact absurd (List.mem_singleton_self _) hadvance
    | pinned => exact absurd (List.mem_singleton_self _) hclosing
  | @stuck m p x hregular e he =>
    subst hregular
    refine ⟨fun _ _ hnone => absurd (he.symm.trans hnone) (by simp), fun hnames => by simp at hnames, fun id hid => ?_⟩
    exact ⟨m, p, x, hjob, Option.some.inj (he.symm.trans hid), rfl, rfl, rfl⟩

theorem step_name_ne (job : Job) : job.step.name ≠ UserReward.step.name := by
  cases job <;> simp [Job.step, Advance.step, Closing.step, UserReward.step]

theorem Reopened.not_mem_names {may : CompletionError → Prop} {books : Books}
    (h : Reopened may books job names cause after) : UserReward.step.name ∉ names := by
  cases h with
  | clean | stuck => simp
  | partly => simpa using (step_name_ne job).symm

theorem recordsRolledBack_append (h : before.RecordsRolledBack after r names cause) :
    before.RecordsRolledBack after r (names ++ [UserReward.step.name]) cause := by
  have hmem {name : String} (hne : name ≠ UserReward.step.name) :
      name ∈ names ++ [UserReward.step.name] ↔ name ∈ names := by simp [hne]
  have hadvance : Advance.step.name ≠ UserReward.step.name := by simp [Advance.step, UserReward.step]
  have hclosing : Closing.step.name ≠ UserReward.step.name := by simp [Closing.step, UserReward.step]
  refine ⟨fun hnotAdvance hnotClosing => ?_, fun hnames => ?_, h.stuck⟩
  · exact h.undone (mt (hmem hadvance).2 hnotAdvance) (mt (hmem hclosing).2 hnotClosing)
  · obtain ⟨job, hjob, hname, hleft⟩ := h.notUndone (hnames.imp (hmem hadvance).1 (hmem hclosing).1)
    exact ⟨job, hjob, (hmem (step_name_ne job)).2 hname, hleft⟩

theorem userTotal_tookBack {user : String} {amount : Int} {after : Books}
    (h : after.userTotals = (before.rewarded user amount).userTotals) (other : String) :
    (tookBack before user amount after).userTotal other = before.userTotal other := by
  rw [tookBack]
  split
  · next hnone =>
    rw [Books.rewarded, if_pos hnone] at h
    rw [Books.userTotal, h, Books.userTotal]
  · next hsome =>
    by_cases hother : other = user
    · rw [hother, Books.userTotal_setUserTotal_self]
    · rw [Books.userTotal_setUserTotal_of_ne _ _ _ hother, Books.userTotal, h, Books.rewarded, if_neg hsome]
      exact Books.userTotal_setUserTotal_of_ne _ _ _ hother

theorem tookBack_eq (before : Books) (user : String) (amount : Int) (after : Books) :
    tookBack before user amount after =
      { after with userTotals := (tookBack before user amount after).userTotals } := by
  rw [tookBack]
  split <;> rfl

theorem Remains.rolledBack (hkeyed : before.Keyed) (h : Remains Plain r before names cause after) :
    before.RolledBack after r names cause := by
  cases h with
  | untouched he =>
    exact ⟨rfl, fun _ _ => rfl, fun _ => rfl, fun hname => by simp at hname,
      recordsRolledBack_same ⟨rfl, rfl, rfl⟩ he⟩
  | @takenBack job hjob _ _ after h =>
    have hnot := h.not_mem_names
    have htotal := userTotal_tookBack (congrArg Books.userTotals h.aside :)
    rw [Books.rewarded_eq] at h
    have hrecords := h.recordsRolledBack hkeyed hjob
    refine ⟨?_, fun other _ => htotal other, fun _ => htotal r.user, fun hname => absurd hname hnot, ?_⟩
    · rw [tookBack_eq, h.aside]
    · rw [tookBack_eq]
      exact hrecords.of_sameRecords ⟨rfl, rfl, rfl⟩
  | @notTakenBack job hjob hearned names cause after h =>
    have htotals : after.userTotals =
        (before.setUserTotal r.user (before.userTotal r.user + job.mission.experience)).userTotals := by
      rw [h.aside, Books.rewarded, if_neg (Int.not_le.2 hearned)]
    have hmem : UserReward.step.name ∈ names ++ [UserReward.step.name] := by simp
    rw [Books.rewarded_eq] at h
    refine ⟨?_, fun other hother => ?_, fun hname => absurd hmem hname, fun _ => ⟨job, hjob, hearned, ?_⟩,
      recordsRolledBack_append (h.recordsRolledBack hkeyed hjob)⟩
    · rw [h.aside]
    · rw [Books.userTotal, htotals]
      exact Books.userTotal_setUserTotal_of_ne _ _ _ hother
    · rw [Books.userTotal, htotals]
      exact Books.userTotal_setUserTotal_self _ _ _

end Completion

namespace Books

/-- Every total has 64 bits, also once the user and the guild of a request's mission are credited. -/
structure HasRoom (books : Books) (r : Request) : Prop extends TotalsFit books where
  user : ∀ job, books.Selects r job → Fits64 (books.userTotal r.user + max job.mission.experience 0)
  guild : ∀ job, books.Selects r job → ∀ guild, job.mission.guild = some guild →
    Fits64 (books.guildTotal guild + max job.mission.guildExperience 0)

variable {before after : Books} {r : Request}

theorem HasRoom.of_missionFor {books : Books} {m : Mission} (hm : books.missionFor r = some m) (hfits : books.TotalsFit)
    (huser : Fits64 (books.userTotal r.user + max m.experience 0)) (hguild : ∀ guild ∈ m.guild,
      Fits64 (books.guildTotal guild + max m.guildExperience 0)) : books.HasRoom r := by
  have hmission {job : Job} (hjob : books.Selects r job) : m = job.mission :=
    Option.some.inj (hm.symm.trans hjob.missionFor_eq)
  refine ⟨hfits, fun job hjob => ?_, fun job hjob guild hmine => ?_⟩
  · exact hmission hjob ▸ huser
  · rw [← hmission hjob] at hmine ⊢
    exact hguild guild hmine

theorem Credited.totalsFit {job : Job} (h : before.Credited after r.user job) (hjob : before.Selects r job)
    (hroom : before.HasRoom r) : after.TotalsFit := by
  constructor
  · intro user
    by_cases huser : user = r.user
    · rw [huser, h.userTotal]
      exact hroom.user job hjob
    · rw [h.otherUsers user huser]
      exact hroom.users user
  · intro guild
    by_cases hguild : job.mission.guild = some guild
    · rw [h.guildTotal guild hguild]
      exact hroom.guild job hjob guild hguild
    · rw [h.otherGuilds guild hguild]
      exact hroom.guilds guild

theorem RolledBack.totalsFit {names : List String} {cause : Option CompletionError}
    (h : before.RolledBack after r names cause) (hroom : before.HasRoom r) : after.TotalsFit := by
  constructor
  · intro user
    by_cases huser : user = r.user
    · subst huser
      by_cases hname : UserReward.step.name ∈ names
      · obtain ⟨job, hjob, hearned, htotal⟩ := h.userNotUndone hname
        have hfits := hroom.user job hjob
        rwa [htotal, ← Int.max_eq_left (Int.le_of_lt hearned)]
      · rw [h.userUndone hname]
        exact hroom.users r.user
    · rw [h.otherUsers user huser]
      exact hroom.users user
  · intro guild
    have hguilds : after.guildTotals = before.guildTotals := by rw [h.aside]
    rw [guildTotal, hguilds]
    exact hroom.guilds guild

end Books

/-- With retries that can be counted, a completion ends. If it ends with an error, the books are rolled back as the
error reports, so long as nobody takes part twice, no total overflows, collaborators' failures changed nothing and none
of them spoke of a claimed execution. -/
theorem Operation.complete_rollsBack (o : Operation) (hcount : o.Countable) (r : Request) {S : Type}
    {server : Server S} {books : S → Books} {good : S → Prop}
    (hserver : server.FailsCleanlyInRange (·.leftClaimed = none) books good) {s : S} (hs : good s)
    (hkeyed : (books s).Keyed) (honce : (books s).PartsOnce) (hroom : (books s).HasRoom r) :
    ∃ result audit, (((o.complete r).serve server).run s).1 = .ok (result, audit) ∧
      ∀ e, result = .error e → (books s).RolledBack (books (((o.complete r).serve server).run s).2) r
        e.stepsNotUndone e.stepCause := by
  have hmay (e : CompletionError) (he : e.leftClaimed = none) : Completion.Plain e := he
  have halone := Completion.obeys_complete_undisturbed hmay hkeyed o r
  have hknown := ((books s).known (o.effective r)).obeys_complete_known o r
  have hinRange := halone.inRange hknown ?_ (e := .collaborator "" "") rfl hkeyed honce hkeyed (.refl _)
  · have hend := hinRange.serve (hserver.governs Context) hs
    generalize ((o.complete r).serve server).run s = run at hend ⊢
    obtain ⟨i | ⟨result, audit⟩, s'⟩ := run
    · exact absurd hcount hend
    · refine ⟨result, audit, rfl, ?_⟩
      rintro e rfl
      exact Completion.Remains.rolledBack hkeyed hend
  · -- the totals fit however the completion ends
    rintro (i | ⟨e | completion, audit⟩) after hend
    · exact absurd hcount hend
    · exact (Completion.Remains.rolledBack hkeyed hend).totalsFit hroom
    · obtain ⟨job, hjob, hshared⟩ := hend
      exact (Completion.credited_credits hkeyed hjob hshared).totalsFit hjob hroom

namespace Fixture

def hasty : Operation where
  settings := .standard
  valid := rfl

/-- The world with a guild that cannot be rewarded, where neither the execution nor the user's experience can be put
back. -/
def broken : World :=
  (guild ++ [Disturbance.failGuildAdditions 1, Disturbance.failSubtractions 1, Disturbance.failExecutionSaves 1]).foldl
    World.disturb {}

def sticky : World := (plain ++ [Disturbance.failCounts 1, Disturbance.failExecutionSaves 1]).foldl World.disturb {}

def notUndone? : Except Interruption (Except CompletionError Completion × AuditLog) → Option (List String)
  | .ok (.error e, _) => some e.stepsNotUndone
  | _ => none

end Fixture

open Fixture in
theorem Operation.complete_rollsBack_broken :
    ∃ e audit, (((hasty.complete request).serve World.server).run broken).1 = .ok (.error e, audit) ∧
      e.stepsNotUndone = ["update_participant_progress", "grant_user_experience"] ∧
      broken.books.RolledBack (((hasty.complete request).serve World.server).run broken).2.books request
        e.stepsNotUndone e.stepCause := by
  have hhands : broken.faults.Hands (·.leftClaimed = none) := ⟨fun _ _ => rfl, by decide, by decide⟩
  have honce : broken.books.PartsOnce := .of_stored (by decide +kernel)
  have hfits : broken.books.TotalsFit := .of_stored (by decide +kernel) (by decide +kernel)
  have hroom : broken.books.HasRoom request :=
    .of_missionFor (m := { mission with guild := some 7, guildExperience := 20 }) (by decide +kernel) hfits
      (by decide +kernel) (by decide +kernel)
  have hnames : notUndone? (((hasty.complete request).serve World.server).run broken).1 =
      some ["update_participant_progress", "grant_user_experience"] := by decide +kernel
  obtain ⟨result, audit, hrun, hrolledBack⟩ := hasty.complete_rollsBack (by decide) request
    (World.server_failsCleanly _).inRange hhands (World.keyed_foldl_disturb .empty _) honce hroom
  generalize ((hasty.complete request).serve World.server).run broken = run at hnames hrun hrolledBack ⊢
  rw [hrun] at hnames ⊢
  cases result with
  | ok completion => cases hnames
  | error e => exact ⟨e, audit, rfl, Option.some.inj hnames, hrolledBack e rfl⟩

open Fixture in
/-- A completion that fails without naming a step may still leave its execution completed. -/
theorem Operation.complete_leaves_execution_claimed :
    sticky.books.Keyed ∧ sticky.books.PartsOnce ∧ sticky.books.HasRoom request ∧
      sticky.faults.Hands (·.leftClaimed = none) ∧
      ∃ e audit, (((hasty.complete request).serve World.server).run sticky).1 = .ok (.error e, audit) ∧
        e.stepsNotUndone = [] ∧ sticky.books.executions.get? 500 = some execution ∧
        (((hasty.complete request).serve World.server).run sticky).2.books.executions.get? 500 =
          some { execution with status := .completed } := by
  have hfits : sticky.books.TotalsFit := .of_stored (by decide +kernel) (by decide +kernel)
  have hroom : sticky.books.HasRoom request :=
    .of_missionFor (m := mission) (by decide +kernel) hfits (by decide +kernel) (by decide +kernel)
  have hnames : notUndone? (((hasty.complete request).serve World.server).run sticky).1 = some [] := by
    decide +kernel
  have hbefore : sticky.books.executions.get? 500 = some execution := by decide +kernel
  have hafter : (((hasty.complete request).serve World.server).run sticky).2.books.executions.get? 500 =
      some { execution with status := .completed } := by
    decide +kernel
  refine ⟨World.keyed_foldl_disturb .empty _, .of_stored (by decide +kernel), hroom,
    ⟨fun _ _ => rfl, by decide, by decide⟩, ?_⟩
  generalize ((hasty.complete request).serve World.server).run sticky = run at hnames hafter ⊢
  obtain ⟨i | ⟨e | completion, audit⟩, w⟩ := run
  · cases hnames
  · exact ⟨e, audit, rfl, Option.some.inj hnames, hbefore, hafter⟩
  · cases hnames

end Missions
