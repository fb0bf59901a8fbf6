import Missions.Proofs.Completion.Claims.Answering
import Missions.Proofs.Completion.Knowledge
import Missions.Proofs.Completion.Progress.Records

namespace Missions

def Instance.frame (i : Instance) : Instance := { i with status := .pending }

namespace Books

/-- Missions and what stays of the records are the same. -/
structure Lasting (books books' : Books) : Prop extends SameFrames books books' where
  instances : ∀ id, (books'.instances.get? id).map Instance.frame = (books.instances.get? id).map Instance.frame

/-- The participant, in whatever status and progress, is the user's part in the mission. -/
def Mine (home : Books) (r : Request) (p : Participant) : Prop :=
  r.pinned = false ∧ (home.participantOf r.target r.user).map Participant.frame = some p.frame

/-- What a completion knows that has been told of what belongs to its request, and of nothing else. -/
def known (home : Books) (r : Request) : Knowledge where
  mission m := home.missionFor r = some m
  participant := home.Mine r
  execution x := (home.executions.get? x.id).map Execution.frame = some x.frame ∧
    ∃ p, home.Mine r p ∧ x.participant = p.id
  pinned i := r.pinned = true ∧ (home.instances.get? r.target).map Instance.frame = some i.frame
  error _ := True
  participant_with _ _ _ h := h
  execution_with _ _ h := h
  pinned_with _ _ h := h
  error_other _ _ := trivial

variable {home books books' : Books} {r : Request}

theorem Lasting.refl (books : Books) : books.Lasting books := ⟨.refl books, fun _ => rfl⟩

theorem Lasting.trans {books'' : Books} (h : books.Lasting books') (h' : books'.Lasting books'') :
    books.Lasting books'' := ⟨h.toSameFrames.trans h'.toSameFrames, fun id => (h'.instances id).trans (h.instances id)⟩

theorem Lasting.of_eq (hmissions : books'.missions = books.missions)
    (hparticipants : books'.participants = books.participants)
    (hexecutions : books'.executions = books.executions) (hinstances : books'.instances = books.instances) :
    books.Lasting books' := ⟨.of_eq hmissions hparticipants hexecutions, fun _ => by rw [hinstances]⟩

theorem lasting_putInstance {i j : Instance} (hstored : books.instances.get? j.id = some i)
    (hframe : j.frame = i.frame) : books.Lasting (books.putInstance j) where
  toSameFrames := .of_eq rfl rfl rfl
  instances id := by
    rw [putInstance, Table.get?_insert]
    split
    · next hid => rw [hid, hstored, Option.map_some, Option.map_some, hframe]
    · rfl

/-! ### What is known -/

section

variable (hhome : home.Keyed)

include hhome

theorem mission_id_of_known (hregular : r.pinned = false) {m : Mission} (hm : (home.known r).mission m) :
    m.id = r.target := by
  have hfound : home.missions.get? r.target = some m := by simpa [known, missionFor, hregular] using hm
  exact hhome.missions _ _ hfound

theorem instance_id_of_known {i : Instance} (hi : (home.known r).pinned i) : i.id = r.target := by
  obtain ⟨j, hj, hframe⟩ := Option.map_eq_some_iff.1 hi.2
  have hid : j.frame.id = i.frame.id := congrArg Instance.id hframe
  exact hid.symm.trans (hhome.instances r.target j hj)

end

theorem missionFor_of_known {i : Instance} (hi : (home.known r).pinned i) :
    home.missionFor r = home.missions.get? i.mission := by
  obtain ⟨j, hj, hframe⟩ := Option.map_eq_some_iff.1 hi.2
  have hmission : j.frame.mission = i.frame.mission := congrArg Instance.mission hframe
  rw [missionFor, if_pos hi.1, hj, Option.bind_some]
  exact congrArg home.missions.get? hmission

theorem known_execution_congr {x y : Execution} (hx : (home.known r).execution x) (hframe : y.frame = x.frame) :
    (home.known r).execution y := by
  have hid : y.frame.id = x.frame.id := congrArg Execution.id hframe
  have hof : y.frame.participant = x.frame.participant := congrArg Execution.participant hframe
  obtain ⟨hstored, p, hp, hxp⟩ := hx
  rw [← hframe] at hstored
  exact ⟨(congrArg (fun id => (home.executions.get? id).map Execution.frame) hid).trans hstored, p, hp, hof.trans hxp⟩

theorem Lasting.participant (h : home.Lasting books) {p : Participant} (hp : home.Mine r p) :
    ∃ q, books.participantOf r.target r.user = some q ∧ q.frame = p.frame :=
  Option.map_eq_some_iff.1 ((h.participantOf r.target r.user).trans hp.2)

theorem Lasting.execution (h : home.Lasting books) {x : Execution} (hx : (home.known r).execution x) :
    ∃ y, books.executions.get? x.id = some y ∧ y.frame = x.frame :=
  Option.map_eq_some_iff.1 ((h.executions x.id).trans hx.1)

theorem Lasting.pinned (h : home.Lasting books) {i : Instance} (hi : (home.known r).pinned i) :
    ∃ j, books.instances.get? r.target = some j ∧ j.frame = i.frame :=
  Option.map_eq_some_iff.1 ((h.instances r.target).trans hi.2)

theorem Lasting.tells (h : home.Lasting books) (hhome : home.Keyed) (hkeyed : books.Keyed) {c : Call}
    (hc : (home.known r).Allows r c) : (home.known r).Tells c (books.perform c).1 := by
  cases c with
  | findMission id =>
    intro m hm
    have hm : home.missions.get? id = some m := h.missions ▸ hm
    rcases hc with ⟨hregular, rfl⟩ | ⟨i, hi, rfl⟩
    · simpa [known, missionFor, hregular] using hm
    · exact (missionFor_of_known hi).trans hm
  | findParticipant mission user =>
    obtain ⟨hregular, rfl, m, hm, rfl⟩ := hc
    intro p hp
    rw [mission_id_of_known hhome hregular hm] at hp
    have hp : books.participantOf r.target r.user = some p := hp
    exact ⟨hregular, (h.participantOf r.target r.user).symm.trans (by rw [hp, Option.map_some])⟩
  | findExecution id =>
    obtain ⟨x, hx, rfl⟩ := hc
    intro y hy
    obtain ⟨z, hz, hframe⟩ := h.execution hx
    obtain rfl := Option.some.inj (hz.symm.trans hy)
    exact known_execution_congr hx hframe
  | findExecutionInProgress participant =>
    obtain ⟨p, hp, rfl⟩ := hc
    intro y hy
    obtain ⟨hstored, hof, -⟩ := executionInProgress_eq_some hkeyed hy
    exact ⟨(h.executions y.id).symm.trans (by rw [hstored, Option.map_some]), p, hp, hof⟩
  | findInstance id =>
    intro i hi
    have hi : books.instances.get? id = some i := hi
    have hpinned : r.pinned = true ∧ id = r.target := by
      rcases hc with hc | ⟨j, hj, rfl⟩
      · exact hc
      · exact ⟨hj.1, instance_id_of_known hhome hj⟩
    obtain ⟨hpinned, rfl⟩ := hpinned
    exact ⟨hpinned, (h.instances r.target).symm.trans (by rw [hi, Option.map_some])⟩
  | _ => trivial

theorem Lasting.perform (h : home.Lasting books) (hhome : home.Keyed) (hkeyed : books.Keyed) {c : Call}
    (hc : (home.known r).Allows r c) : home.Lasting (books.perform c).2 := by
  refine h.trans ?_
  cases c with
  | saveParticipant q =>
    obtain ⟨p, hp, hframe⟩ := h.participant hc
    obtain ⟨hstored, -, -⟩ := participantOf_eq_some hkeyed hp
    have hid : p.id = q.id := (congrArg Participant.id hframe :)
    rw [hid] at hstored
    exact ⟨sameFrames_putParticipant hstored hframe.symm, fun _ => rfl⟩
  | saveExecution x =>
    obtain ⟨y, hy, hframe⟩ := h.execution hc
    exact ⟨sameFrames_putExecution hy hframe.symm, fun _ => rfl⟩
  | completeExecution id =>
    rcases books.completeExecution_cases hkeyed id with hlost | ⟨x, rfl, hx, -, hclaimed⟩
    · rw [Books.perform, hlost]
      exact .refl books
    · rw [Books.perform, hclaimed]
      exact ⟨sameFrames_putExecution hx rfl, fun _ => rfl⟩
  | saveInstance i =>
    obtain ⟨j, hj, hframe⟩ := h.pinned hc
    exact lasting_putInstance ((congrArg books.instances.get? (instance_id_of_known hhome hc)).trans hj) hframe.symm
  | completeInstance id =>
    rcases books.completeInstance_cases hkeyed id with hlost | ⟨i, rfl, hi, -, hclaimed⟩
    · rw [Books.perform, hlost]
      exact .refl books
    · rw [Books.perform, hclaimed]
      exact lasting_putInstance hi rfl
  | setShared target shared => cases target <;> exact .of_eq rfl rfl rfl rfl
  | _ => exact .of_eq rfl rfl rfl rfl

theorem Answers.tells {may : CompletionError → Prop} {c : Call} {answer : Except CompletionError c.Answer}
    (h : books.Answers may c answer books') (hlasting : home.Lasting books) (hhome : home.Keyed)
    (hkeyed : books.Keyed) (hc : (home.known r).Allows r c) :
    Procedure.Came (home.known r).error ((home.known r).Tells c) answer := by
  cases h with
  | performed => exact hlasting.tells hhome hkeyed hc
  | failed | claimLost => trivial

theorem Answers.lasting {may : CompletionError → Prop} {c : Call} {answer : Except CompletionError c.Answer}
    (h : books.Answers may c answer books') (hlasting : home.Lasting books) (hhome : home.Keyed)
    (hkeyed : books.Keyed) (hc : (home.known r).Allows r c) : home.Lasting books' := by
  cases h with
  | performed => exact hlasting.perform hhome hkeyed hc
  | failed | claimLost => exact hlasting

end Books

end Missions
