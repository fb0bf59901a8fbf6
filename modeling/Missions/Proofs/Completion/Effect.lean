import Missions.Proofs.Completion.Undisturbed.Ending
import Missions.Rehearsal.Fixture

namespace Missions

namespace Books

/-- An execution that is stored as a participant's and in progress, and has the lowest number of all these. -/
structure FirstOpen (books : Books) (p : Participant) (x : Execution) : Prop where
  stored : books.executions.get? x.id = some x
  participant : x.participant = p.id
  status : x.status = .inProgress
  first : ∀ y, books.executions.get? y.id = some y → y.participant = p.id → y.status = .inProgress → x.id ≤ y.id

theorem firstOpen_of_executionInProgress {books : Books} (hkeyed : books.Keyed) {p : Participant} {x : Execution}
    (h : books.executionInProgress p.id = some x) : books.FirstOpen p x := by
  obtain ⟨hstored, hparticipant, hstatus⟩ := executionInProgress_eq_some hkeyed h
  exact ⟨hstored, hparticipant, hstatus, fun y hy => executionInProgress_le hkeyed h hy⟩

/-- The record of a job is completed, and no other record has changed. -/
def RecordCompleted (before after : Books) : Job → Prop
  | .regular m p x => before.FirstOpen p x ∧
      after.executions = before.executions.insert x.id { x with status := .completed } ∧
      after.participants = before.participants.insert p.id
        (p.advanced (after.executionCount p.id .completed) m.totalExecutions) ∧
      after.instances = before.instances
  | .pinned _ i => after.executions = before.executions ∧ after.participants = before.participants ∧
      after.instances = before.instances.insert i.id { i with status := .completed }

/-- What a job is worth to a user is credited, once, and nothing else has changed but what is shared. -/
structure Credited (before after : Books) (user : String) (job : Job) : Prop where
  userTotal : after.userTotal user = before.userTotal user + max job.mission.experience 0
  otherUsers : ∀ other, other ≠ user → after.userTotal other = before.userTotal other
  guildTotal : ∀ guild, job.mission.guild = some guild →
    after.guildTotal guild = before.guildTotal guild + max job.mission.guildExperience 0
  otherGuilds : ∀ other, job.mission.guild ≠ some other → after.guildTotal other = before.guildTotal other
  record : before.RecordCompleted after job
  missions : after.missions = before.missions

variable (books : Books)

theorem userTotal_rewarded (user : String) (amount : Int) :
    (books.rewarded user amount).userTotal user = books.userTotal user + max amount 0 := by
  rw [rewarded]
  split
  · omega
  · rw [userTotal_setUserTotal_self]
    omega

theorem userTotal_rewarded_of_ne {user other : String} (h : other ≠ user) (amount : Int) :
    (books.rewarded user amount).userTotal other = books.userTotal other := by
  rw [rewarded]
  split
  · rfl
  · exact userTotal_setUserTotal_of_ne _ _ _ h

theorem guildTotal_guildRewarded (guild amount : Int) :
    (books.guildRewarded guild amount).guildTotal guild = books.guildTotal guild + max amount 0 := by
  rw [guildRewarded]
  split
  · omega
  · rw [guildTotal_setGuildTotal_self]
    omega

theorem guildTotal_guildRewarded_of_ne {guild other : Int} (h : other ≠ guild) (amount : Int) :
    (books.guildRewarded guild amount).guildTotal other = books.guildTotal other := by
  rw [guildRewarded]
  split
  · rfl
  · exact guildTotal_setGuildTotal_of_ne _ _ _ h

theorem guildCredited_eq (m : Mission) :
    books.guildCredited m = { books with guildTotals := (books.guildCredited m).guildTotals } := by
  rw [guildCredited]
  split
  · rw [guildRewarded]
    split <;> rfl
  · rfl

theorem guildTotals_guildCredited {books books' : Books} (h : books.guildTotals = books'.guildTotals) (m : Mission) :
    (books.guildCredited m).guildTotals = (books'.guildCredited m).guildTotals := by
  rw [guildCredited, guildCredited]
  cases m.guild with
  | none => exact h
  | some guild =>
    simp only [guildRewarded]
    split
    · exact h
    · simp only [setGuildTotal, guildTotal, h]

end Books

namespace Completion

theorem credited_eq (books : Books) (user : String) (job : Job) :
    credited books user job = { books.closed job with
      userTotals := (books.rewarded user job.mission.experience).userTotals
      guildTotals := (books.guildCredited job.mission).guildTotals } := by
  have hguild : ((books.closed job).guildCredited job.mission).guildTotals =
      (books.guildCredited job.mission).guildTotals :=
    Books.guildTotals_guildCredited (by cases job <;> rfl) job.mission
  rw [credited, Books.rewarded_eq, Books.closed_with_userTotals, Books.guildCredited_eq, ← hguild]
  congr 1
  exact Books.guildTotals_guildCredited (by rfl) job.mission

theorem credited_credits {books : Books} (hkeyed : books.Keyed) {r : Request} {job : Job} (hjob : books.Selects r job)
    {after : Books} (h : (credited books r.user job).SharingAside after) : books.Credited after r.user job := by
  rw [credited_eq] at h
  have huser : after.userTotals = (books.rewarded r.user job.mission.experience).userTotals := h.userTotals
  have hguild : after.guildTotals = (books.guildCredited job.mission).guildTotals := h.guildTotals
  have hexecutions : after.executions = (books.closed job).executions := h.executions
  have hparticipants : after.participants = (books.closed job).participants := h.participants
  have hinstances : after.instances = (books.closed job).instances := h.instances
  have hmissions : after.missions = (books.closed job).missions := h.missions
  refine ⟨?_, fun other hother => ?_, fun guild hmine => ?_, fun other hother => ?_, ?_, ?_⟩
  · rw [Books.userTotal, huser]
    exact books.userTotal_rewarded r.user job.mission.experience
  · rw [Books.userTotal, huser]
    exact books.userTotal_rewarded_of_ne hother job.mission.experience
  · rw [Books.guildTotal, hguild, Books.guildCredited, hmine]
    exact books.guildTotal_guildRewarded guild job.mission.guildExperience
  · rw [Books.guildTotal, hguild, Books.guildCredited]
    cases hmine : job.mission.guild with
    | none => rfl
    | some guild =>
      have hne : other ≠ guild := fun heq => hother (hmine.trans (congrArg some heq.symm))
      exact books.guildTotal_guildRewarded_of_ne hne job.mission.guildExperience
  · cases job with
    | regular m p x =>
      refine ⟨Books.firstOpen_of_executionInProgress hkeyed hjob.2.2.2, hexecutions, ?_, hinstances⟩
      rw [hparticipants, Books.executionCount, hexecutions]
      rfl
    | pinned m i => exact ⟨hexecutions, hparticipants, hinstances⟩
  · rw [hmissions]
    cases job <;> rfl

end Completion

/-- With retries that can be counted, a completion ends. If it goes through, its job is credited once and nothing else
is touched, whatever collaborators failed on the way, so long as their failures changed nothing. -/
theorem Operation.complete_credits (o : Operation) (hcount : o.Countable) (r : Request) {S : Type}
    {server : Server S} {books : S → Books} {good : S → Prop}
    (hserver : server.FailsCleanly (fun _ => True) books good) {s : S} (hs : good s) (hkeyed : (books s).Keyed) :
    ∃ result audit, (((o.complete r).serve server).run s).1 = .ok (result, audit) ∧
      ∀ completion, result = .ok completion → ∃ job, (books s).Selects r job ∧
        (books s).Credited (books (((o.complete r).serve server).run s).2) r.user job := by
  have hmay (e : CompletionError) (_ : e.leftClaimed = none) : (fun _ : CompletionError => True) e := trivial
  have hend := (Completion.obeys_complete_undisturbed hmay hkeyed o r).serve (hserver.governs Context) hs
  generalize ((o.complete r).serve server).run s = run at hend ⊢
  obtain ⟨i | ⟨result, audit⟩, s'⟩ := run
  · exact absurd hcount hend
  · refine ⟨result, audit, rfl, ?_⟩
    rintro completion rfl
    obtain ⟨job, hjob, hshared⟩ := hend
    exact ⟨job, hjob, Completion.credited_credits hkeyed hjob hshared⟩

namespace Fixture

/-- Tries again to advance the participant, and to reward the guild. -/
def patient : Operation where
  settings := { steps := [("update_participant_progress", ⟨2, 0⟩), ("grant_guild_experience", ⟨1, 0⟩)] }
  valid := rfl

def request : Request := ⟨"user-1", 100, false, true⟩

def pinnedRequest : Request := ⟨"user-1", 900, true, true⟩

/-- The world with a guild, in which a claimed execution has to be given back once, and the guild is rewarded at the
second attempt. -/
def hampered : World :=
  (guild ++ [Disturbance.failCounts 1, Disturbance.failGuildAdditions 1]).foldl World.disturb {}

end Fixture

open Fixture in
theorem Operation.complete_credits_hampered :
    (∃ completion audit,
      (((patient.complete request).serve World.server).run hampered).1 = .ok (.ok completion, audit) ∧
      ∃ job, hampered.books.Selects request job ∧ hampered.books.Credited
        (((patient.complete request).serve World.server).run hampered).2.books request.user job) ∧
    ∃ completion audit,
      (((patient.complete pinnedRequest).serve World.server).run hampered).1 = .ok (.ok completion, audit) ∧
      ∃ job, hampered.books.Selects pinnedRequest job ∧ hampered.books.Credited
        (((patient.complete pinnedRequest).serve World.server).run hampered).2.books pinnedRequest.user job := by
  have hhands : hampered.faults.Hands fun _ => True := ⟨fun _ _ => trivial, fun _ _ => trivial, fun _ _ => trivial⟩
  have hcredited (r : Request)
      (hok : (((patient.complete r).serve World.server).run hampered).1.toOption.any (·.1.isOk) = true) :
      ∃ completion audit, (((patient.complete r).serve World.server).run hampered).1 = .ok (.ok completion, audit) ∧
        ∃ job, hampered.books.Selects r job ∧ hampered.books.Credited
          (((patient.complete r).serve World.server).run hampered).2.books r.user job := by
    obtain ⟨result, audit, hrun, hcredits⟩ := patient.complete_credits (by decide) r
      (World.server_failsCleanly _) hhands (World.keyed_foldl_disturb .empty _)
    generalize ((patient.complete r).serve World.server).run hampered = run at hok hrun hcredits ⊢
    rw [hrun] at hok ⊢
    cases result with
    | ok completion => exact ⟨completion, audit, rfl, hcredits completion rfl⟩
    | error e => cases hok
  exact ⟨hcredited request (by decide +kernel), hcredited pinnedRequest (by decide +kernel)⟩

end Missions
