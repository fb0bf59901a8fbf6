import Missions.Proofs.Completion.Facets
import Missions.Proofs.Completion.Job
import Missions.Proofs.Ledger.Stores

namespace Missions

namespace Table

variable {κ ν μ : Type} [Ord κ]

theorem lookup_map (f : ν → μ) (k : κ) (rows : List (κ × ν)) :
    lookup k (rows.map fun row => (row.1, f row.2)) = (lookup k rows).map f := by
  induction rows with
  | nil => rfl
  | cons row rest ih =>
    rw [List.map_cons, lookup, lookup]
    split
    · rfl
    · exact ih

variable [Std.LawfulEqOrd κ]

theorem map_values_eq [Std.TransOrd κ] {f : ν → μ} {t t' : Table κ ν}
    (h : ∀ k, (t'.get? k).map f = (t.get? k).map f) : t'.values.map f = t.values.map f := by
  have hrows : t'.rows.map (fun row => (row.1, f row.2)) = t.rows.map fun row => (row.1, f row.2) := by
    refine rows_ext (List.pairwise_map.2 t'.ascending) (List.pairwise_map.2 t.ascending) fun k => ?_
    rw [lookup_map, lookup_map]
    exact h k
  simpa [values, Function.comp_def] using congrArg (List.map Prod.snd) hrows

theorem exists_place {k : κ} {v : ν} {rows : List (κ × ν)} (hrows : rows.Pairwise fun a b => compare a.1 b.1 = .lt)
    [Std.OrientedOrd κ] (h : lookup k rows = some v) :
    ∃ front back, rows = front ++ (k, v) :: back ∧ ∀ w, place k w rows = front ++ (k, w) :: back := by
  induction rows with
  | nil => cases h
  | cons row rest ih =>
    obtain ⟨k', v'⟩ := row
    have hrest := List.pairwise_cons.1 hrows
    rw [lookup] at h
    split at h
    · next hk =>
      obtain rfl := Option.some.inj h
      obtain rfl := Std.LawfulEqCmp.compare_eq_iff_eq.1 hk
      exact ⟨[], rest, rfl, fun w => by simp [place]⟩
    · obtain ⟨front, back, heq, hplace⟩ := ih hrest.2 h
      have hlt : compare k' k = .lt := hrest.1 (k, v) ((lookup_eq_some_iff hrest.2).1 h)
      have hgt : compare k k' = .gt := Std.OrientedCmp.gt_iff_lt.2 hlt
      exact ⟨(k', v') :: front, back, by rw [heq]; rfl, fun w => by simp [place, hgt, hplace w]⟩

/-- A value that is none of a kind may be rewritten to another one that is none, and as many are of the kind. -/
theorem countP_values_insert [Std.TransOrd κ] {t : Table κ ν} {p : ν → Bool} {k : κ} {v w : ν}
    (h : t.get? k = some v) (hv : p v = false) (hw : p w = false) :
    (t.insert k w).values.countP p = t.values.countP p := by
  obtain ⟨front, back, hrows, hplace⟩ := exists_place t.ascending h
  have hinsert : (t.insert k w).rows = front ++ (k, w) :: back := hplace w
  rw [values, values, hinsert, hrows]
  simp [hv, hw]

end Table

def Participant.frame (p : Participant) : Participant := { p with status := .accepted, progress := 0 }

def Execution.frame (x : Execution) : Execution := { x with status := .pending }

theorem Execution.eq_of_frame {x y : Execution} (h : x.frame = y.frame) : x = { y with status := x.status } := by
  obtain ⟨id, participant, mission, user, status, shared⟩ := x
  obtain ⟨id', participant', mission', user', status', shared'⟩ := y
  cases h
  rfl

namespace Books

variable {books books' : Books}

/-- The missions of both books are the same, and so is what stays of participants and executions. -/
structure SameFrames (books books' : Books) : Prop where
  missions : books'.missions = books.missions
  participants : ∀ id, (books'.participants.get? id).map Participant.frame =
    (books.participants.get? id).map Participant.frame
  executions : ∀ id, (books'.executions.get? id).map Execution.frame =
    (books.executions.get? id).map Execution.frame

theorem SameFrames.of_eq (hmissions : books'.missions = books.missions)
    (hparticipants : books'.participants = books.participants)
    (hexecutions : books'.executions = books.executions) : books.SameFrames books' :=
  ⟨hmissions, fun _ => by rw [hparticipants], fun _ => by rw [hexecutions]⟩

theorem SameFrames.refl (books : Books) : books.SameFrames books := .of_eq rfl rfl rfl

theorem SameFrames.trans {books'' : Books} (h : books.SameFrames books') (h' : books'.SameFrames books'') :
    books.SameFrames books'' where
  missions := h'.missions.trans h.missions
  participants id := (h'.participants id).trans (h.participants id)
  executions id := (h'.executions id).trans (h.executions id)

theorem sameFrames_putParticipant {p q : Participant} (hstored : books.participants.get? q.id = some p)
    (hframe : q.frame = p.frame) : books.SameFrames (books.putParticipant q) where
  missions := rfl
  participants id := by
    rw [putParticipant, Table.get?_insert]
    split
    · next hid => rw [hid, hstored, Option.map_some, Option.map_some, hframe]
    · rfl
  executions _ := rfl

theorem sameFrames_putExecution {x y : Execution} (hstored : books.executions.get? y.id = some x)
    (hframe : y.frame = x.frame) : books.SameFrames (books.putExecution y) where
  missions := rfl
  participants _ := rfl
  executions id := by
    rw [putExecution, Table.get?_insert]
    split
    · next hid => rw [hid, hstored, Option.map_some, Option.map_some, hframe]
    · rfl

theorem SameFrames.participantOf (h : books.SameFrames books') (mission : Int) (user : String) :
    (books'.participantOf mission user).map Participant.frame =
      (books.participantOf mission user).map Participant.frame := by
  have hfind (t : Table Int Participant) : (t.values.map Participant.frame).find?
      (fun p => p.mission == mission && p.user == user) =
        (t.values.find? fun p => p.mission == mission && p.user == user).map Participant.frame := List.find?_map ..
  rw [Books.participantOf, Books.participantOf, ← hfind, ← hfind, Table.map_values_eq h.participants]

theorem executionCount_putExecution_of_ne {x y : Execution} {id : Int} {status : ExecutionStatus}
    (hstored : books.executions.get? y.id = some x) (hx : x.participant ≠ id) (hy : y.participant ≠ id) :
    (books.putExecution y).executionCount id status = books.executionCount id status :=
  Table.countP_values_insert hstored (by simp [hx]) (by simp [hy])

theorem putExecution_eq_self {x : Execution} (h : books.executions.get? x.id = some x) :
    books.putExecution x = books := by
  rw [putExecution, Table.insert_eq_self h]

structure Agree (id : Int) (books books' : Books) : Prop where
  participant : books'.participants.get? id = books.participants.get? id
  count : books'.executionCount id .completed = books.executionCount id .completed

theorem Agree.refl (id : Int) (books : Books) : books.Agree id books := ⟨rfl, rfl⟩

/-- The participant's progress according to the executions that are completed. -/
def measure (books : Books) (id : Int) (m : Mission) : UInt8 :=
  Advance.progressPercent (.ofNat (books.executionCount id .completed)) m.totalExecutions

/-- The participant's progress is `shown` if that is given, and else what the completed executions make it. -/
def Shows (books : Books) (id : Int) (shown : Option UInt8) : Prop :=
  ∀ p m, books.participants.get? id = some p → books.missions.get? p.mission = some m →
    p.progress = shown.getD (books.measure id m)

/-- Every participant's progress is what the completed executions make it. -/
def Truthful (books : Books) : Prop := ∀ id, books.Shows id none

theorem Shows.agree {id : Int} {shown : Option UInt8} (h : books.Shows id shown) (hframes : books.SameFrames books')
    (hagree : books.Agree id books') : books'.Shows id shown := by
  intro p m hp hm
  rw [hagree.participant] at hp
  rw [hframes.missions] at hm
  rw [h p m hp hm, measure, measure, hagree.count]

/-- Records of one participant were written, so that its progress is as `shown` says, and nothing of the others. -/
structure Moved (id : Int) (shown : Option UInt8) (books books' : Books) : Prop where
  keyed : books'.Keyed
  sameFrames : books.SameFrames books'
  shows : books'.Shows id shown
  others : ∀ k, k ≠ id → books.Agree k books'

theorem moved_put (hkeyed : books.Keyed) {p q : Participant} {x y : Execution} {shown : Option UInt8}
    (hx : books.executions.get? y.id = some x) (hy : y.frame = x.frame) (hp : books.participants.get? q.id = some p)
    (hq : q.frame = p.frame) (hof : x.participant = q.id)
    (hshown : ∀ m, books.missions.get? q.mission = some m →
      q.progress = shown.getD ((books.putExecution y).measure q.id m)) :
    books.Moved q.id shown ((books.putExecution y).putParticipant q) where
  keyed := (hkeyed.putExecution y).putParticipant q
  sameFrames := (sameFrames_putExecution hx hy).trans (sameFrames_putParticipant hp hq)
  shows p' m hp' hm := by
    have hsome : p' = q := Option.some.inj (hp'.symm.trans (Table.get?_insert_self ..))
    rw [hsome] at hm ⊢
    exact hshown m hm
  others k hk := by
    have hyx : y.frame.participant = x.frame.participant := congrArg Execution.participant hy
    refine ⟨Table.get?_insert_of_ne _ hk _, executionCount_putExecution_of_ne hx ?_ ?_⟩
    · exact fun heq => hk (heq.symm.trans hof)
    · exact fun heq => hk (heq.symm.trans (hyx.trans hof))

end Books

namespace Context

/-- All snapshots by which a closed execution is opened again, and its participant brought back, are there. -/
structure ClosingMarks.Complete (marks : ClosingMarks) : Prop where
  targetBefore : marks.targetBefore.isSome
  progressBefore : marks.progressBefore.isSome
  progressAfter : marks.progressAfter.isSome
  participantBefore : marks.participantBefore.isSome
  participantAfter : marks.participantAfter.isSome

/-- What stays of the records that the context shows is in the books. A context that has marked an execution as closed
has all that it takes to undo that. -/
structure Rooted (books : Books) (ctx : Context) : Prop where
  mission : ∀ m, ctx.mission = some m → books.missions.get? m.id = some m
  participant : ∀ m p, ctx.mission = some m → ctx.participant = some p →
    (books.participantOf m.id ctx.request.user).map Participant.frame = some p.frame
  execution : ∀ p x, ctx.participant = some p → ctx.execution = some x →
    (books.executions.get? x.id).map Execution.frame = some x.frame ∧ x.participant = p.id
  marked : ctx.closing.targetAfter.isSome → ctx.participant.isSome ∧ ctx.closing.Complete

variable {books books' : Books} {ctx ctx' : Context}

theorem map_frame_withExecutionStatus (ctx : Context) (status : ExecutionStatus) :
    (ctx.withExecutionStatus status).execution.map Execution.frame = ctx.execution.map Execution.frame := by
  rw [withExecutionStatus, Option.map_map]
  rfl

theorem rooted_start (books : Books) (r : Request) : (start r).Rooted books := by
  constructor <;> intros <;> contradiction

theorem Rooted.sameFrames (h : ctx.Rooted books) (hframes : books.SameFrames books') : ctx.Rooted books' where
  mission m hm := by rw [hframes.missions, h.mission m hm]
  participant m p hm hp := (hframes.participantOf m.id ctx.request.user).trans (h.participant m p hm hp)
  execution p x hp hx := ⟨(hframes.executions x.id).trans (h.execution p x hp hx).1, (h.execution p x hp hx).2⟩
  marked := h.marked

theorem Rooted.of_frames (h : ctx.Rooted books) (hbrief : ctx'.brief = ctx.brief)
    (hparticipant : ctx'.participant.map Participant.frame = ctx.participant.map Participant.frame)
    (hexecution : ctx'.execution.map Execution.frame = ctx.execution.map Execution.frame)
    (hmarked : ctx'.closing.targetAfter.isSome → ctx'.participant.isSome ∧ ctx'.closing.Complete) :
    ctx'.Rooted books := by
  have hrequest : ctx'.request = ctx.request := congrArg Brief.request hbrief
  have hmission : ctx'.mission = ctx.mission := congrArg Brief.mission hbrief
  have hshown (p' : Participant) (hp' : ctx'.participant = some p') :
      ∃ p, ctx.participant = some p ∧ p.frame = p'.frame := by
    rw [hp', Option.map_some] at hparticipant
    exact Option.map_eq_some_iff.1 hparticipant.symm
  refine ⟨fun m hm => h.mission m (hmission ▸ hm), fun m p' hm hp' => ?_, fun p' x' hp' hx' => ?_, hmarked⟩
  · obtain ⟨p, hp, hframe⟩ := hshown p' hp'
    rw [hrequest, h.participant m p (hmission ▸ hm) hp, hframe]
  · obtain ⟨p, hp, hframe⟩ := hshown p' hp'
    rw [hx', Option.map_some] at hexecution
    obtain ⟨x, hx, hframe'⟩ := Option.map_eq_some_iff.1 hexecution.symm
    obtain ⟨hstored, hof⟩ := h.execution p x hp hx
    have hid : x.frame.id = x'.frame.id := congrArg Execution.id hframe'
    have hpid : p.frame.id = p'.frame.id := congrArg Participant.id hframe
    have hxp : x.frame.participant = x'.frame.participant := congrArg Execution.participant hframe'
    refine ⟨?_, hxp.symm.trans (hof.trans hpid)⟩
    rw [← hframe', ← hstored]
    exact congrArg (fun id => (books.executions.get? id).map Execution.frame) hid.symm

/-- The participant that the context shows is stored, and is the one that the user's part in the mission leads to. -/
theorem Rooted.stored_participant (h : ctx.Rooted books) (hkeyed : books.Keyed) {m : Mission} {p : Participant}
    (hm : ctx.mission = some m) (hp : ctx.participant = some p) :
    ∃ q, books.participantOf m.id ctx.request.user = some q ∧ books.participants.get? p.id = some q ∧
      q.frame = p.frame ∧ q.mission = m.id := by
  obtain ⟨q, hq, hframe⟩ := Option.map_eq_some_iff.1 (h.participant m p hm hp)
  obtain ⟨hstored, hmission, -⟩ := Books.participantOf_eq_some hkeyed hq
  have hid : q.frame.id = p.frame.id := congrArg Participant.id hframe
  exact ⟨q, hq, (congrArg books.participants.get? hid).symm.trans hstored, hframe, hmission⟩

theorem Rooted.stored_execution (h : ctx.Rooted books) {p : Participant} {x : Execution}
    (hp : ctx.participant = some p) (hx : ctx.execution = some x) :
    ∃ y, books.executions.get? x.id = some y ∧ y.frame = x.frame ∧ y.participant = p.id := by
  obtain ⟨hstored, hparticipant⟩ := h.execution p x hp hx
  obtain ⟨y, hy, hframe⟩ := Option.map_eq_some_iff.1 hstored
  have hyp : y.frame.participant = x.frame.participant := congrArg Execution.participant hframe
  exact ⟨y, hy, hframe, hyp.trans hparticipant⟩

end Context

end Missions
