import Missions.Proofs.Completion.Known
import Missions.Proofs.Completion.Rollback

/-! Worlds that are alike in what belongs to a request, and differ in whatever else they hold, make the same of it,
and are still alike afterwards. -/

namespace Missions

namespace Table

variable {κ ν : Type} [Ord κ] [Std.TransOrd κ] [Std.LawfulEqOrd κ]

theorem filter_values_eq {f : ν → Bool} {t t' : Table κ ν} (h : ∀ k, (t'.get? k).filter f = (t.get? k).filter f) :
    t'.values.filter f = t.values.filter f := by
  have hascending (t : Table κ ν) :
      (t.rows.filter fun row => f row.2).Pairwise fun a b => compare a.1 b.1 = .lt := t.ascending.filter _
  have hlookup (t : Table κ ν) (k : κ) :
      lookup k (t.rows.filter fun row => f row.2) = (t.get? k).filter f := by
    refine Option.ext fun v => ?_
    rw [lookup_eq_some_iff (hascending t), List.mem_filter, ← get?_eq_some_iff, Option.filter_eq_some_iff]
  have hrows : (t'.rows.filter fun row => f row.2) = t.rows.filter fun row => f row.2 :=
    rows_ext (hascending t') (hascending t) fun k => by rw [hlookup, hlookup, h]
  have hvalues (t : Table κ ν) : t.values.filter f = (t.rows.filter fun row => f row.2).map Prod.snd := by
    rw [values, List.filter_map]
    rfl
  rw [hvalues, hvalues, hrows]

end Table

namespace Books

/-- What belongs to a request, according to books from home, is the same: the missions, the user's experience, the
user's part in the mission with its executions, or the instance, the experience of the mission's guild, and the number
of the next entry. -/
structure Alike (home : Books) (r : Request) (books books' : Books) : Prop where
  missions : books'.missions = books.missions
  userTotal : books'.userTotal r.user = books.userTotal r.user
  participant : r.pinned = false → books'.participantOf r.target r.user = books.participantOf r.target r.user
  executions : r.pinned = false → ∀ p, home.participantOf r.target r.user = some p → ∀ id,
    (books'.executions.get? id).filter (·.participant == p.id) =
      (books.executions.get? id).filter (·.participant == p.id)
  pinned : r.pinned = true → books'.instances.get? r.target = books.instances.get? r.target
  guildTotal : ∀ m guild, home.missionFor r = some m → m.guild = some guild →
    books'.guildTotal guild = books.guildTotal guild
  nextFeed : books'.nextFeed = books.nextFeed

variable {home books books' : Books} {r : Request}

/-! ### Alike books -/

namespace Alike

variable (h : home.Alike r books books')

include h

theorem execution {p : Participant} (hp : home.Mine r p) (id : Int) :
    (books'.executions.get? id).filter (·.participant == p.id) =
      (books.executions.get? id).filter (·.participant == p.id) := by
  obtain ⟨hregular, hmine⟩ := hp
  obtain ⟨q, hq, hframe⟩ := Option.map_eq_some_iff.1 hmine
  have hid : q.frame.id = p.frame.id := congrArg Participant.id hframe
  have hsame := h.executions hregular q hq id
  rwa [show q.id = p.id from hid] at hsame

theorem executionsOf {p : Participant} (hp : home.Mine r p) :
    books'.executions.values.filter (·.participant == p.id) = books.executions.values.filter (·.participant == p.id) :=
  Table.filter_values_eq (h.execution hp)

theorem executionInProgress {p : Participant} (hp : home.Mine r p) :
    books'.executionInProgress p.id = books.executionInProgress p.id := by
  have hfind (b : Books) : b.executionInProgress p.id =
      (b.executions.values.filter (·.participant == p.id)).find? (·.status == .inProgress) := by
    rw [Books.executionInProgress, List.find?_filter]
    simp only [Bool.decide_and, Bool.decide_eq_true]
  rw [hfind, hfind, h.executionsOf hp]

theorem executionCount {p : Participant} (hp : home.Mine r p) (status : ExecutionStatus) :
    books'.executionCount p.id status = books.executionCount p.id status := by
  have hcount (b : Books) : b.executionCount p.id status =
      (b.executions.values.filter (·.participant == p.id)).countP (·.status == status) := by
    rw [Books.executionCount, List.countP_filter]
    congr 1
    funext x
    exact Bool.and_comm _ _
  rw [hcount, hcount, h.executionsOf hp]

theorem get?_execution (hlasting : home.Lasting books) {x : Execution} (hx : (home.known r).execution x) :
    books'.executions.get? x.id = books.executions.get? x.id := by
  obtain ⟨y, hy, hframe⟩ := hlasting.execution hx
  obtain ⟨-, p, hp, hxp⟩ := hx
  have hof : y.frame.participant = x.frame.participant := congrArg Execution.participant hframe
  have hyp : y.participant = p.id := hof.trans hxp
  have hsame := h.execution hp x.id
  rw [hy, Option.filter_some, if_pos (by simpa using hyp), Option.filter_eq_some_iff] at hsame
  rw [hsame.1, hy]

theorem putExecution (x : Execution) : home.Alike r (books.putExecution x) (books'.putExecution x) :=
  { h with
    executions := fun hregular p hp id => by
      rw [Books.putExecution, Books.putExecution, Table.get?_insert, Table.get?_insert]
      split
      · rfl
      · exact h.executions hregular p hp id }

theorem putInstance (i : Instance) : home.Alike r (books.putInstance i) (books'.putInstance i) :=
  { h with
    pinned := fun hpinned => by
      rw [Books.putInstance, Books.putInstance, Table.get?_insert, Table.get?_insert]
      split
      · rfl
      · exact h.pinned hpinned }

theorem putParticipant (hlasting : home.Lasting books) (hkeyed : books.Keyed) (hkeyed' : books'.Keyed)
    {q : Participant} (hq : home.Mine r q) : home.Alike r (books.putParticipant q) (books'.putParticipant q) :=
  { h with
    participant := fun hregular => by
      obtain ⟨p, hp, hframe⟩ := hlasting.participant hq
      have hid : p.frame.id = q.frame.id := congrArg Participant.id hframe
      have hmission : p.frame.mission = q.frame.mission := congrArg Participant.mission hframe
      have huser : p.frame.user = q.frame.user := congrArg Participant.user hframe
      have hp' := (h.participant hregular).trans hp
      rw [participantOf_putParticipant (q := q) hkeyed hp hid.symm hmission.symm huser.symm,
        participantOf_putParticipant (q := q) hkeyed' hp' hid.symm hmission.symm huser.symm] }

theorem changeUserTotal (amount : Int) :
    (books'.changeUserTotal r.user amount).1 = (books.changeUserTotal r.user amount).1 ∧
      home.Alike r (books.changeUserTotal r.user amount).2 (books'.changeUserTotal r.user amount).2 := by
  have htotal (b : Books) : (b.changeUserTotal r.user amount).2.userTotal r.user = b.userTotal r.user + amount :=
    userTotal_setUserTotal_self ..
  refine ⟨?_, { h with userTotal := by rw [htotal, htotal, h.userTotal] }⟩
  simp only [Books.changeUserTotal, Books.experience, userTotal_setUserTotal_self, h.userTotal]

theorem changeGuildTotal {m : Mission} {guild : Int} (hm : home.missionFor r = some m) (hguild : m.guild = some guild)
    (amount : Int) : (books'.changeGuildTotal guild amount).1 = (books.changeGuildTotal guild amount).1 ∧
      home.Alike r (books.changeGuildTotal guild amount).2 (books'.changeGuildTotal guild amount).2 := by
  have htotal (b : Books) : (b.changeGuildTotal guild amount).2.guildTotal guild = b.guildTotal guild + amount :=
    guildTotal_setGuildTotal_self ..
  have hsame := h.guildTotal m guild hm hguild
  refine ⟨?_, { h with guildTotal := fun m' guild' hm' hguild' => ?_ }⟩
  · simp only [Books.changeGuildTotal, Books.guildExperience, guildTotal_setGuildTotal_self, hsame]
  · obtain rfl := Option.some.inj (hm.symm.trans hm')
    obtain rfl := Option.some.inj (hguild.symm.trans hguild')
    rw [htotal, htotal, hsame]

theorem perform (hhome : home.Keyed) (hlasting : home.Lasting books) (hkeyed : books.Keyed) (hkeyed' : books'.Keyed)
    {c : Call} (hc : (home.known r).Allows r c) :
    (books'.perform c).1 = (books.perform c).1 ∧ home.Alike r (books.perform c).2 (books'.perform c).2 := by
  cases c with
  | currentExperience user =>
    obtain rfl := hc
    exact ⟨by simp only [Books.perform, Books.experience, h.userTotal], h⟩
  | grantExperience grant =>
    have huser : grant.user = r.user := hc
    simpa only [Books.perform, huser] using h.changeUserTotal grant.amount
  | subtractExperience grant =>
    have huser : grant.user = r.user := hc
    simpa only [Books.perform, huser] using h.changeUserTotal (-grant.amount)
  | guildExperience guild =>
    obtain ⟨m, hm, hguild⟩ := hc
    exact ⟨by simp only [Books.perform, Books.guildExperience, h.guildTotal m guild hm hguild], h⟩
  | addGuildExperience guild amount credit =>
    obtain ⟨m, hm, hguild⟩ := hc
    exact h.changeGuildTotal hm hguild amount
  | subtractGuildExperience guild amount credit =>
    obtain ⟨m, hm, hguild⟩ := hc
    exact h.changeGuildTotal hm hguild (-amount)
  | createFeed draft =>
    exact ⟨by simp only [Books.perform, Books.publish, h.nextFeed],
      { h with nextFeed := congrArg (· + 1) h.nextFeed }⟩
  | deleteFeed feed => exact ⟨rfl, { h with }⟩
  | setShared target shared => cases target <;> exact ⟨rfl, { h with }⟩
  | findMission id => exact ⟨by simp only [Books.perform, h.missions], h⟩
  | findParticipant mission user =>
    obtain ⟨hregular, rfl, m, hm, rfl⟩ := hc
    rw [mission_id_of_known hhome hregular hm]
    exact ⟨h.participant hregular, h⟩
  | saveParticipant q => exact ⟨rfl, h.putParticipant hlasting hkeyed hkeyed' hc⟩
  | findExecution id =>
    obtain ⟨x, hx, rfl⟩ := hc
    exact ⟨h.get?_execution hlasting hx, h⟩
  | findExecutionInProgress participant =>
    obtain ⟨p, hp, rfl⟩ := hc
    exact ⟨h.executionInProgress hp, h⟩
  | saveExecution x => exact ⟨rfl, h.putExecution x⟩
  | completeExecution id =>
    obtain ⟨x, hx, rfl⟩ := hc
    simp only [Books.perform, Books.completeExecution, h.get?_execution hlasting hx]
    split
    · split
      · exact ⟨rfl, h.putExecution _⟩
      · exact ⟨rfl, h⟩
    · exact ⟨rfl, h⟩
  | countExecutions participant status =>
    obtain ⟨p, hp, rfl⟩ := hc
    exact ⟨by simp only [Books.perform, h.executionCount hp], h⟩
  | findInstance id =>
    have hpinned : r.pinned = true ∧ id = r.target := by
      rcases hc with hc | ⟨j, hj, rfl⟩
      · exact hc
      · exact ⟨hj.1, instance_id_of_known hhome hj⟩
    obtain ⟨hpinned, rfl⟩ := hpinned
    exact ⟨h.pinned hpinned, h⟩
  | saveInstance i => exact ⟨rfl, h.putInstance i⟩
  | completeInstance id =>
    obtain ⟨i, hi, rfl⟩ := hc
    have hsame := h.pinned hi.1
    rw [← instance_id_of_known hhome hi] at hsame
    simp only [Books.perform, Books.completeInstance, hsame]
    split
    · split
      · exact ⟨rfl, h.putInstance _⟩
      · exact ⟨rfl, h⟩
    · exact ⟨rfl, h⟩

end Alike

end Books

/-! ### Alike worlds -/

/-- Two worlds on the way of one completion, which began in the first of them with the books from home. -/
structure World.AlikeOnTheWay (home : Books) (r : Request) (w w' : World) : Prop where
  keyed : w.books.Keyed
  keyed' : w'.books.Keyed
  lasting : home.Lasting w.books
  alike : home.Alike r w.books w'.books
  faults : w'.faults = w.faults

theorem World.AlikeOnTheWay.serve {home : Books} {r : Request} {w w' : World} (h : AlikeOnTheWay home r w w')
    (hhome : home.Keyed)
    {c : Call} (hc : (home.known r).Allows r c) :
    (World.server c w').1 = (World.server c w).1 ∧ AlikeOnTheWay home r (World.server c w).2 (World.server c w').2 ∧
      Procedure.Came (home.known r).error ((home.known r).Tells c) (World.server c w).1 := by
  obtain ⟨books, faults⟩ := w
  obtain ⟨books', faults'⟩ := w'
  obtain rfl : faults' = faults := h.faults
  have hhands : faults'.Hands fun _ => True := ⟨fun _ _ => trivial, fun _ _ => trivial, fun _ _ => trivial⟩
  have hanswers := (World.server_failsCleanly (fun _ => True) c ⟨books, faults'⟩ hhands).1
  refine ⟨?_, ?_, hanswers.tells h.lasting hhome h.keyed hc⟩
  · obtain ⟨hsame, -⟩ := h.alike.perform hhome h.lasting h.keyed h.keyed' hc
    simp only [World.server]
    split <;> simp_all
  · obtain ⟨-, halike⟩ := h.alike.perform hhome h.lasting h.keyed h.keyed' hc
    simp only [World.server]
    split
    · exact ⟨h.keyed, h.keyed', h.lasting, h.alike, rfl⟩
    · exact ⟨h.keyed.perform c, h.keyed'.perform c, h.lasting.perform hhome h.keyed hc, halike, rfl⟩

theorem Program.Obeys.alikeOnTheWay {α : Type} {home : Books} {r : Request} {p : Program Context α}
    {Q : α → Unit → Prop}
    (h : p.Obeys ((home.known r).protocol r) Q ()) (hhome : home.Keyed) {w w' : World}
    (halike : w.AlikeOnTheWay home r w') :
    ((p.serve World.server).run w').1 = ((p.serve World.server).run w).1 ∧
      World.AlikeOnTheWay home r ((p.serve World.server).run w).2 ((p.serve World.server).run w').2 := by
  induction p generalizing w w' with
  | done a => exact ⟨rfl, halike⟩
  | call here c next ih =>
    obtain ⟨hallowed, hnext⟩ := h
    obtain ⟨hsame, halike, htold⟩ := halike.serve hhome hallowed
    have hserve (v : World) : ((Program.call here c next).serve World.server).run v =
        ((next (World.server c v).1).serve World.server).run (World.server c v).2 := rfl
    rw [hserve, hserve, hsame]
    exact ih _ (hnext _ () htold) halike

/-- Worlds that are alike in what belongs to a request, and have the same faults ahead, answer it with the same outcome
and the same log. They are alike afterwards, with the same faults still ahead. -/
theorem Operation.complete_isolated (o : Operation) (r : Request) {w w' : World} (hkeyed : w.books.Keyed)
    (hkeyed' : w'.books.Keyed) (hfaults : w'.faults = w.faults) (halike : w.books.Alike r w.books w'.books) :
    (((o.complete r).serve World.server).run w').1 = (((o.complete r).serve World.server).run w).1 ∧
      w.books.Alike r (((o.complete r).serve World.server).run w).2.books
        (((o.complete r).serve World.server).run w').2.books ∧
      (((o.complete r).serve World.server).run w').2.faults = (((o.complete r).serve World.server).run w).2.faults := by
  have halike : w.books.Alike (o.effective r) w.books w'.books := { halike with }
  obtain ⟨hsame, halike⟩ := ((w.books.known (o.effective r)).obeys_complete_known o r).alikeOnTheWay hkeyed
    ⟨hkeyed, hkeyed', .refl w.books, halike, hfaults⟩
  exact ⟨hsame, { halike.alike with }, halike.faults⟩

namespace Fixture

/-- The world in which a completion cannot be undone, and much in it that is none of the user's business. -/
def crowded : World :=
  [Disturbance.setUserTotal "user-2" 900, .setGuildTotal 8 70, .putParticipant ⟨9, 100, "user-2", .inProgress, 0⟩,
    .putExecution ⟨400, 9, 100, "user-2", .inProgress, false⟩,
    .putInstance ⟨901, 100, "user-2", .completed, true⟩].foldl World.disturb broken

theorem alike_crowded : broken.books.Alike request broken.books crowded.books where
  missions := rfl
  userTotal := by decide +kernel
  participant _ := by decide +kernel
  executions _ p hp id := by
    have hmine : broken.books.participantOf request.target request.user = some participant := by decide +kernel
    obtain rfl := Option.some.inj (hmine.symm.trans hp)
    have hexecutions : crowded.books.executions =
        broken.books.executions.insert 400 ⟨400, 9, 100, "user-2", .inProgress, false⟩ := rfl
    rw [hexecutions, Table.get?_insert]
    split
    · next hid => rw [hid]; decide +kernel
    · rfl
  pinned hpinned := by cases hpinned
  guildTotal m guild hm hguild := by
    have hmission : (broken.books.missionFor request).bind (·.guild) = some 7 := by decide +kernel
    rw [hm, Option.bind_some, hguild] at hmission
    obtain rfl := Option.some.inj hmission
    decide +kernel
  nextFeed := rfl

end Fixture

open Fixture in
theorem Operation.complete_isolated_crowded :
    (((hasty.complete request).serve World.server).run crowded).1 =
        (((hasty.complete request).serve World.server).run broken).1 ∧
      notUndone? (((hasty.complete request).serve World.server).run crowded).1 =
        some ["update_participant_progress", "grant_user_experience"] ∧
      broken.books.Alike request (((hasty.complete request).serve World.server).run broken).2.books
        (((hasty.complete request).serve World.server).run crowded).2.books := by
  have hnames : notUndone? (((hasty.complete request).serve World.server).run broken).1 =
      some ["update_participant_progress", "grant_user_experience"] := by decide +kernel
  have hbroken : broken.books.Keyed := World.keyed_foldl_disturb .empty _
  have hcrowded : crowded.books.Keyed := World.keyed_foldl_disturb hbroken _
  obtain ⟨hsame, halike, -⟩ := hasty.complete_isolated request hbroken hcrowded rfl alike_crowded
  refine ⟨hsame, ?_, halike⟩
  rw [hsame]
  exact hnames

end Missions
