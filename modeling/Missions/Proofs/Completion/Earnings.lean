import Missions.Proofs.Completion.Effect

/-! The report repeats the mission's rewards; the books credit only what is above zero, so that the two agree as long
as no reward is negative. -/

namespace Missions

namespace Completion

/-- The report is that of a completion of the mission. -/
structure Reports (completion : Completion) (m : Mission) : Prop where
  mission : completion.mission = m.id
  userEarned : completion.userEarned = m.experience
  guild : completion.guild = m.guild
  guildEarned : completion.guildEarned = if m.guild.isSome then m.guildExperience else 0

/-- What is reported as earned is by how much the totals have changed; without a guild nothing is. -/
structure Matches (completion : Completion) (user : String) (before after : Books) : Prop where
  user : completion.userEarned = after.userTotal user - before.userTotal user
  guild : ∀ guild, completion.guild = some guild →
    completion.guildEarned = after.guildTotal guild - before.guildTotal guild
  noGuild : completion.guild = none → completion.guildEarned = 0

theorem reports_ofRun {ctx : Context} {r : Request} {m : Mission} (hbrief : ctx.brief = .of r m)
    {report : Report CompletionError} {completion : Completion} (h : ofRun ctx report = .ok completion) :
    completion.Reports m := by
  have hmission : ctx.mission = some m := congrArg Context.Brief.mission hbrief
  rw [ofRun, Context.missionId, hmission, Option.map_some] at h
  obtain rfl := Except.ok.inj h
  exact ⟨rfl, congrArg Context.Brief.userEarned hbrief, congrArg Context.Brief.guild hbrief,
    congrArg Context.Brief.guildEarned hbrief⟩

/-- A completion that goes through reports the rewards of the mission of its job, and has the job credited. -/
theorem obeys_complete_reporting {may : CompletionError → Prop}
    (hmay : ∀ e : CompletionError, e.leftClaimed = none → may e) {books : Books} (hkeyed : books.Keyed) (o : Operation)
    (r : Request) :
    (o.complete r).Obeys (Books.protocol may Context) (fun outcome after => ∀ completion audit,
      outcome = .ok (.ok completion, audit) → ∃ job, books.Selects r job ∧ completion.Reports job.mission ∧
        books.Credited after r.user job) books := by
  have hvisits := visits_all o.saga.policyFor (o.effective r) hmay hkeyed
  rw [← o.steps_saga] at hvisits
  refine o.obeys_complete hvisits r ⟨rfl, rfl⟩ ?_ ?_ ?_
  · rintro ctx after report audit ⟨job, hjob, hbrief, hshared⟩ completion audit' hcompletion
    obtain ⟨hreport, rfl⟩ := Prod.mk.inj (Except.ok.inj hcompletion)
    exact ⟨job, hjob.of_effective, reports_ofRun hbrief hreport, credited_credits hkeyed hjob.of_effective hshared⟩
  · rintro a ctx after audit - completion audit' hcompletion
    cases hcompletion
  · rintro i after - completion audit' hcompletion
    cases hcompletion

/-- Rewards that were credited as far as they are above zero match their report just if none is negative. -/
theorem matches_iff {completion : Completion} {user : String} {job : Job} {before after : Books}
    (hreports : completion.Reports job.mission) (hcredited : before.Credited after user job) :
    completion.Matches user before after ↔
      0 ≤ job.mission.experience ∧ (job.mission.guild.isSome → 0 ≤ job.mission.guildExperience) := by
  have huser := hcredited.userTotal
  have hguild := hcredited.guildTotal
  constructor
  · rintro ⟨hmatches, hmatches', -⟩
    rw [hreports.userEarned] at hmatches
    refine ⟨by omega, fun hsome => ?_⟩
    obtain ⟨guild, hmine⟩ := Option.isSome_iff_exists.1 hsome
    have hearned := hmatches' guild (hreports.guild.trans hmine)
    rw [hreports.guildEarned, if_pos hsome, hguild guild hmine] at hearned
    omega
  · rintro ⟨hexperience, hguildExperience⟩
    refine ⟨?_, fun guild hmine => ?_, fun hnone => ?_⟩
    · rw [hreports.userEarned, huser]
      omega
    · rw [hreports.guild] at hmine
      have hsome : job.mission.guild.isSome = true := Option.isSome_iff_exists.2 ⟨guild, hmine⟩
      have hpositive := hguildExperience hsome
      rw [hreports.guildEarned, if_pos hsome, hguild guild hmine]
      omega
    · rw [hreports.guild] at hnone
      rw [hreports.guildEarned, hnone, Option.isSome_none, if_neg Bool.false_ne_true]

end Completion

/-- Whatever was overcome on the way: a completion that goes through reports the rewards of its mission, and the user
and the guild are credited what of these is above zero. So the report matches the totals just if no reward is
negative. -/
theorem Operation.complete_matches_iff (o : Operation) (r : Request) {S : Type} {server : Server S} {view : S → Books}
    {good : S → Prop} (hserver : server.FailsCleanly (fun _ => True) view good) {s s' : S} (hs : good s)
    (hkeyed : (view s).Keyed) {completion : Completion} {audit : AuditLog}
    (hrun : ((o.complete r).serve server).run s = (.ok (.ok completion, audit), s')) :
    ∃ m, (view s).missionFor r = some m ∧ completion.Reports m ∧
      (view s').userTotal r.user - (view s).userTotal r.user = max m.experience 0 ∧
      (∀ guild, m.guild = some guild →
        (view s').guildTotal guild - (view s).guildTotal guild = max m.guildExperience 0) ∧
      (completion.Matches r.user (view s) (view s') ↔
        0 ≤ m.experience ∧ (m.guild.isSome → 0 ≤ m.guildExperience)) := by
  have hend := (Completion.obeys_complete_reporting (fun _ _ => trivial) hkeyed o r).serve (hserver.governs Context) hs
  rw [hrun] at hend
  obtain ⟨job, hjob, hreports, hcredited⟩ : ∃ job, (view s).Selects r job ∧ completion.Reports job.mission ∧
      (view s).Credited (view s') r.user job := hend completion audit rfl
  refine ⟨job.mission, hjob.missionFor_eq, hreports, ?_, fun guild hmine => ?_,
    Completion.matches_iff hreports hcredited⟩
  · have huser := hcredited.userTotal
    omega
  · have hguild := hcredited.guildTotal guild hmine
    omega

namespace Fixture

def completing (w : World) : Except Interruption (Except CompletionError Completion × AuditLog) × World :=
  ((patient.complete request).serve World.server).run w

/-- What is reported as earned by the user and by the guild, if the completion goes through. -/
def earnings (w : World) : Option (Int × Int) :=
  (completing w).1.toOption.bind fun (result, _) => result.toOption.map fun c => (c.userEarned, c.guildEarned)

theorem exists_completing {w : World} {user guild : Int} (h : earnings w = some (user, guild)) :
    ∃ completion audit w', completing w = (.ok (.ok completion, audit), w') ∧ completion.userEarned = user ∧
      completion.guildEarned = guild := by
  rw [earnings] at h
  generalize completing w = run at h ⊢
  obtain ⟨_ | ⟨_ | completion, audit⟩, w'⟩ := run
  · cases h
  · cases h
  · obtain ⟨huser, hguild⟩ := Prod.mk.inj (Option.some.inj h)
    exact ⟨completion, audit, w', rfl, huser, hguild⟩

def costly : World :=
  (guild ++ [Disturbance.putMission { mission with guild := some 7, experience := -5, guildExperience := -3 }]).foldl
    World.disturb {}

end Fixture

open Fixture in
theorem Operation.complete_matches_iff_hampered : ∃ completion audit w',
    completing hampered = (.ok (.ok completion, audit), w') ∧
      completion.Matches request.user hampered.books w'.books := by
  have hearnings : earnings hampered = some (30, 20) := by decide +kernel
  obtain ⟨completion, audit, w', hrun, -⟩ := exists_completing hearnings
  obtain ⟨m, hm, -, -, -, hmatches⟩ := patient.complete_matches_iff request (World.server_failsCleanly _)
    (Faults.hands_any _) (World.keyed_foldl_disturb .empty _) hrun
  obtain rfl : m = { mission with guild := some 7, guildExperience := 20 } :=
    Option.some.inj (hm.symm.trans (by decide +kernel))
  exact ⟨completion, audit, w', hrun, hmatches.2 ⟨by decide, fun _ => by decide⟩⟩

open Fixture in
/-- Losses are reported that nobody has suffered. -/
theorem Operation.complete_reports_losses : ∃ completion audit w',
    completing costly = (.ok (.ok completion, audit), w') ∧ completion.userEarned = -5 ∧
      completion.guildEarned = -3 ∧ w'.books.userTotal request.user = costly.books.userTotal request.user ∧
      w'.books.guildTotal 7 = costly.books.guildTotal 7 := by
  have hearnings : earnings costly = some (-5, -3) := by decide +kernel
  obtain ⟨completion, audit, w', hrun, huser, hguild⟩ := exists_completing hearnings
  have htotals : (completing costly).2.books.userTotal request.user = costly.books.userTotal request.user ∧
      (completing costly).2.books.guildTotal 7 = costly.books.guildTotal 7 := by decide +kernel
  rw [hrun] at htotals
  exact ⟨completion, audit, w', hrun, huser, hguild, htotals⟩

end Missions
