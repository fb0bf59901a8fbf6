import Mathlib.Algebra.Ring.Int.Defs
import Missions.Proofs.Completion.Claims.Answering
import Missions.Proofs.Completion.Progress.StepPool

/-! Completions posted one after another. So long as none of them reports that something could not be put back, the
books tell in the end what they told at first together with what the completions that went through have earned. -/

namespace Missions

namespace Books

variable {books books' : Books}

theorem status_congr (hexecutions : books'.executions = books.executions)
    (hinstances : books'.instances = books.instances) (t : Target) : books'.status t = books.status t := by
  cases t with
  | execution id => rw [status, status, hexecutions]
  | pinned id => rw [status, status, hinstances]

theorem Truthful.congr (h : books.Truthful) (hmissions : books'.missions = books.missions)
    (hparticipants : books'.participants = books.participants) (hexecutions : books'.executions = books.executions) :
    books'.Truthful := fun id =>
  (h id).agree (.of_eq hmissions hparticipants hexecutions)
    ⟨by rw [hparticipants], by rw [executionCount, executionCount, hexecutions]⟩

theorem Truthful.moved {id : Int} (h : books.Truthful) (hmoved : books.Moved id none books') : books'.Truthful := by
  intro k
  by_cases hk : k = id
  · exact hk ▸ hmoved.shows
  · exact (h k).agree hmoved.sameFrames (hmoved.others k hk)

namespace Credited

variable {r : Request} {job : Job}

theorem truthful (h : books.Credited books' r.user job) (hkeyed : books.Keyed) (hjob : books.Selects r job)
    (htruthful : books.Truthful) : books'.Truthful := by
  cases job with
  | pinned m i => exact htruthful.congr h.missions h.record.2.1 h.record.1
  | regular m p x =>
    obtain ⟨hopen, hexecutions, hparticipants, -⟩ := h.record
    obtain ⟨hp, hmission, -⟩ := participantOf_eq_some hkeyed hjob.2.2.1
    have hm : books.missions.get? p.mission = some m := by
      rw [hmission, hkeyed.missions _ _ hjob.2.1]
      exact hjob.2.1
    have hcount : books'.executionCount p.id .completed =
        (books.putExecution { x with status := .completed }).executionCount p.id .completed := by
      rw [executionCount, hexecutions]
      rfl
    rw [hcount] at hparticipants
    have hmoved : books.Moved p.id none (books.closed (.regular m p x)) :=
      moved_put (q := books.advanced m p x) (y := { x with status := .completed }) hkeyed hopen.stored rfl hp rfl
        hopen.participant fun m' hm' => by
          obtain rfl := Option.some.inj (hm.symm.trans hm')
          rfl
    exact (htruthful.moved hmoved).congr h.missions hparticipants hexecutions

theorem missionFor_eq (h : books.Credited books' r.user job) (hkeyed : books.Keyed) (hjob : books.Selects r job)
    (r' : Request) : books'.missionFor r' = books.missionFor r' := by
  refine missionFor_congr h.missions (fun id => ?_) r'
  cases job with
  | regular m p x => rw [h.record.2.2.2]
  | pinned m i =>
    rw [h.record.2.2, Table.get?_insert]
    split
    · next hid => rw [hid, hjob.stored hkeyed, Option.map_some, Option.map_some]
    · rfl

theorem status (h : books.Credited books' r.user job) (hkeyed : books.Keyed) (hjob : books.Selects r job) :
    books.status job.target = some .inProgress ∧ books'.status job.target = some .completed ∧
      ∀ t, t ≠ job.target → books'.status t = books.status t := by
  cases job with
  | regular m p x =>
    obtain ⟨hopen, hexecutions, -, hinstances⟩ := h.record
    have hstatus : ∀ t, books'.status t = (books.putExecution { x with status := .completed }).status t :=
      status_congr hexecutions hinstances
    refine ⟨?_, (hstatus _).trans (status_putExecution _), fun t ht => (hstatus t).trans (status_putExecution_of_ne ht)⟩
    rw [Job.target, Books.status, hopen.stored, Option.map_some, hopen.status]
  | pinned m i =>
    obtain ⟨hexecutions, -, hinstances⟩ := h.record
    have hstatus : ∀ t, books'.status t = (books.putInstance { i with status := .completed }).status t :=
      status_congr hexecutions hinstances
    refine ⟨?_, (hstatus _).trans (status_putInstance _), fun t ht => (hstatus t).trans (status_putInstance_of_ne ht)⟩
    rw [Job.target, Books.status, hjob.stored hkeyed, Option.map_some, hjob.2.2.1]

end Credited

end Books

namespace Completion

variable {may : CompletionError → Prop} {books after : Books} {r : Request} {names : List String}
variable {cause : Option CompletionError}

theorem Reopened.plain {job : Job} (h : Reopened may books job names cause after)
    (hcause : cause.bind (·.leftClaimed) = none) : Reopened Plain books job names cause after := by
  cases h with
  | clean => exact .clean hcause
  | partly _ hpartly => exact .partly hcause hpartly
  | stuck _ he => exact absurd (he.symm.trans hcause) (by simp)

theorem Remains.plain (h : Remains may r books names cause after) (hcause : cause.bind (·.leftClaimed) = none) :
    Remains Plain r books names cause after := by
  cases h with
  | untouched => exact .untouched hcause
  | takenBack hjob h => exact .takenBack hjob (h.plain hcause)
  | notTakenBack hjob hearned h => exact .notTakenBack hjob hearned (h.plain hcause)

theorem Remains.nothing (hkeyed : books.Keyed) (h : Remains may r books [] cause after)
    (hcause : cause.bind (·.leftClaimed) = none) :
    after = { books with userTotals := after.userTotals } ∧ ∀ user, after.userTotal user = books.userTotal user := by
  have hrolledBack := (h.plain hcause).rolledBack hkeyed
  obtain ⟨hexecutions, hparticipants, hinstances⟩ := hrolledBack.records.undone (by simp) (by simp) hcause
  refine ⟨?_, fun user => ?_⟩
  · rw [hrolledBack.aside, hexecutions, hparticipants, hinstances]
  · by_cases huser : user = r.user
    · rw [huser, hrolledBack.userUndone (by simp)]
    · exact hrolledBack.otherUsers user huser

end Completion

/-! ### Postings -/

/-- A completion that was alone with the books, and what came of it. Calls may have failed on the way, with errors of
any kind, but a call that fails changes nothing. -/
structure Posting where
  operation : Operation
  request : Request
  before : Books
  outcome : Except Interruption (Except CompletionError Completion × AuditLog)
  after : Books
  comes : (operation.complete request).Comes (fun _ => True) before outcome after

namespace Posting

def wentThrough (p : Posting) : Bool :=
  match p.outcome with
  | .ok (.ok _, _) => true
  | _ => false

def error? (p : Posting) : Option CompletionError :=
  match p.outcome with
  | .ok (.error e, _) => some e
  | _ => none

/-- The completion does not report a step that could not be undone, nor an execution that stays claimed. -/
def Clean (p : Posting) : Prop :=
  ∀ e ∈ p.error?, e.stepsNotUndone = [] ∧ e.stepCause.bind CompletionError.leftClaimed = none

instance (p : Posting) : Decidable p.Clean :=
  inferInstanceAs (Decidable (∀ e ∈ p.error?, e.stepsNotUndone = [] ∧
    e.stepCause.bind CompletionError.leftClaimed = none))

/-- What a user has earned if the completion went through, by the missions of the books. -/
def userCredit (books : Books) (user : String) (p : Posting) : Int :=
  match books.missionFor p.request with
  | some m => if p.wentThrough ∧ p.request.user = user then max m.experience 0 else 0
  | none => 0

/-- What a guild has earned if the completion went through, by the missions of the books. -/
def guildCredit (books : Books) (guild : Int) (p : Posting) : Int :=
  match books.missionFor p.request with
  | some m => if p.wentThrough ∧ m.guild = some guild then max m.guildExperience 0 else 0
  | none => 0

/-- The completion closed this record, which is one that its request asked for, and no other. -/
structure Closes (p : Posting) (t : Target) : Prop where
  asked : ∃ job, p.before.Selects p.request job ∧ job.target = t
  opened : p.before.status t = some .inProgress
  closed : p.after.status t = some .completed
  others : ∀ t', t' ≠ t → p.after.status t' = p.before.status t'

structure Booked (p : Posting) : Prop where
  ended : ∃ result audit, p.outcome = .ok (result, audit)
  keyed : p.after.Keyed
  missionFor : ∀ r, p.after.missionFor r = p.before.missionFor r
  truthful : p.before.Truthful → p.after.Truthful
  userTotal : ∀ user, p.after.userTotal user = p.before.userTotal user + p.userCredit p.before user
  guildTotal : ∀ guild, p.after.guildTotal guild = p.before.guildTotal guild + p.guildCredit p.before guild
  through : p.wentThrough = true → ∃ t, p.Closes t
  failed : p.wentThrough = false → ∀ t, p.after.status t = p.before.status t

variable {p : Posting}

theorem booked_of_credited {completion : Completion} {audit : AuditLog} {job : Job}
    (hout : p.outcome = .ok (.ok completion, audit)) (hkeyed : p.before.Keyed)
    (hjob : p.before.Selects p.request job) (h : p.before.Credited p.after p.request.user job) : p.Booked := by
  have hthrough : p.wentThrough = true := by rw [wentThrough, hout]
  obtain ⟨hopened, hclosed, hothers⟩ := h.status hkeyed hjob
  refine ⟨⟨_, _, hout⟩, p.comes.keyed hkeyed, h.missionFor_eq hkeyed hjob, h.truthful hkeyed hjob, fun user => ?_,
    fun guild => ?_, fun _ => ⟨job.target, ⟨job, hjob, rfl⟩, hopened, hclosed, hothers⟩, fun hnot => ?_⟩
  · rw [userCredit, hjob.missionFor_eq]
    by_cases huser : p.request.user = user
    · simp only [hthrough, huser, and_self, if_true]
      rw [← huser, h.userTotal]
    · simp only [huser, and_false, if_false]
      rw [h.otherUsers user fun heq => huser heq.symm, Int.add_zero]
  · rw [guildCredit, hjob.missionFor_eq]
    by_cases hguild : job.mission.guild = some guild
    · simp only [hthrough, hguild, and_self, if_true]
      exact h.guildTotal guild hguild
    · simp only [hguild, and_false, if_false]
      rw [h.otherGuilds guild hguild, Int.add_zero]
  · rw [hthrough] at hnot
    cases hnot

theorem booked_of_nothing {e : CompletionError} {audit : AuditLog} (hout : p.outcome = .ok (.error e, audit))
    (hkeyed : p.before.Keyed) (hafter : p.after = { p.before with userTotals := p.after.userTotals })
    (htotals : ∀ user, p.after.userTotal user = p.before.userTotal user) : p.Booked := by
  have hnot : p.wentThrough = false := by rw [wentThrough, hout]
  have hmissions : p.after.missions = p.before.missions := (congrArg Books.missions hafter :)
  have hinstances : p.after.instances = p.before.instances := (congrArg Books.instances hafter :)
  have hexecutions : p.after.executions = p.before.executions := (congrArg Books.executions hafter :)
  refine ⟨⟨_, _, hout⟩, p.comes.keyed hkeyed, Books.missionFor_congr hmissions fun id => by rw [hinstances],
    fun h => h.congr hmissions (congrArg Books.participants hafter :) hexecutions, fun user => ?_, fun guild => ?_,
    fun hthrough => ?_, fun _ => Books.status_congr hexecutions hinstances⟩
  · have hnone : p.userCredit p.before user = 0 := by
      rw [userCredit]
      split <;> simp [hnot]
    rw [htotals, hnone, Int.add_zero]
  · have hnone : p.guildCredit p.before guild = 0 := by
      rw [guildCredit]
      split <;> simp [hnot]
    rw [hnone, Int.add_zero, Books.guildTotal, (congrArg Books.guildTotals hafter :)]
    rfl
  · rw [hthrough] at hnot
    cases hnot

theorem booked (hkeyed : p.before.Keyed) (hcount : p.operation.Countable) (hclean : p.Clean) : p.Booked := by
  have hmay (e : CompletionError) (_ : e.leftClaimed = none) : (fun _ : CompletionError => True) e := trivial
  have hend := (Completion.obeys_complete_undisturbed hmay hkeyed p.operation p.request).comes p.comes
  obtain ⟨i | ⟨e | completion, audit⟩, hout⟩ : ∃ outcome, p.outcome = outcome := ⟨_, rfl⟩
  · rw [hout] at hend
    exact absurd hcount hend
  · obtain ⟨hnames, hcause⟩ := hclean e (by rw [error?, hout]; rfl)
    rw [hout] at hend
    dsimp only at hend
    rw [hnames] at hend
    obtain ⟨hafter, htotals⟩ := hend.nothing hkeyed hcause
    exact booked_of_nothing hout hkeyed hafter htotals
  · rw [hout] at hend
    obtain ⟨job, hjob, hshared⟩ := hend
    exact booked_of_credited hout hkeyed hjob (Completion.credited_credits hkeyed hjob hshared)

end Posting

/-! ### Histories -/

/-- Postings one after another, each on the books that the one before it has left. -/
inductive History : Books → List Posting → Books → Prop
  | start (books : Books) : History books [] books
  | post (p : Posting) {postings : List Posting} {last : Books} (h : History p.after postings last) :
      History p.before (p :: postings) last

/-- The last books tell what the first ones told and what the postings have added to it. -/
structure Reconciled (first : Books) (postings : List Posting) (last : Books) : Prop where
  ended : ∀ p ∈ postings, ∃ result audit, p.outcome = .ok (result, audit)
  truthful : first.Truthful → last.Truthful
  userTotal : ∀ user, last.userTotal user = first.userTotal user + (postings.map (·.userCredit first user)).sum
  guildTotal : ∀ guild, last.guildTotal guild = first.guildTotal guild + (postings.map (·.guildCredit first guild)).sum
  /-- Each completion that went through closed a record of its own that was in progress from the first. -/
  records : ∃ targets, List.Forall₂ Posting.Closes (postings.filter (·.wentThrough)) targets ∧ targets.Nodup ∧
    (∀ t ∈ targets, first.status t = some .inProgress) ∧
    ∀ t, last.status t = if t ∈ targets then some .completed else first.status t

namespace Reconciled

theorem start (books : Books) : Reconciled books [] books where
  ended p hp := by simp at hp
  truthful h := h
  userTotal user := by simp
  guildTotal guild := by simp
  records := ⟨[], .nil, .nil, by simp, by simp⟩

theorem post {p : Posting} {postings : List Posting} {last : Books} (hbooked : p.Booked)
    (h : Reconciled p.after postings last) : Reconciled p.before (p :: postings) last where
  ended := List.forall_mem_cons.2 ⟨hbooked.ended, h.ended⟩
  truthful htrue := h.truthful (hbooked.truthful htrue)
  userTotal user := by
    have hcredit : (fun q : Posting => q.userCredit p.after user) = fun q => q.userCredit p.before user := by
      funext q
      rw [Posting.userCredit, hbooked.missionFor, Posting.userCredit]
    rw [h.userTotal, hbooked.userTotal, hcredit, List.map_cons, List.sum_cons, Int.add_assoc]
  guildTotal guild := by
    have hcredit : (fun q : Posting => q.guildCredit p.after guild) = fun q => q.guildCredit p.before guild := by
      funext q
      rw [Posting.guildCredit, hbooked.missionFor, Posting.guildCredit]
    rw [h.guildTotal, hbooked.guildTotal, hcredit, List.map_cons, List.sum_cons, Int.add_assoc]
  records := by
    obtain ⟨targets, hcloses, hnodup, hopened, hlast⟩ := h.records
    cases hthrough : p.wentThrough with
    | false =>
      have hstatus := hbooked.failed hthrough
      refine ⟨targets, by simpa [hthrough] using hcloses, hnodup, fun t ht => ?_, fun t => ?_⟩
      · rw [← hstatus, hopened t ht]
      · rw [hlast, hstatus]
    | true =>
      obtain ⟨t, ht⟩ := hbooked.through hthrough
      -- a record that is closed now is not open for a later posting
      have hfresh : t ∉ targets := fun hmem => by simpa [ht.closed] using hopened t hmem
      refine ⟨t :: targets, by simpa [hthrough] using ⟨ht, hcloses⟩, List.nodup_cons.2 ⟨hfresh, hnodup⟩,
        fun t' ht' => ?_, fun t' => ?_⟩
      · rcases List.mem_cons.1 ht' with rfl | hmem
        · exact ht.opened
        · rw [← ht.others t' fun heq => hfresh (heq ▸ hmem), hopened t' hmem]
      · rw [hlast]
        by_cases heq : t' = t
        · simp [heq, hfresh, ht.closed]
        · simp [heq, ht.others t' heq]

end Reconciled

/-- However many completions are posted one after another, if all retries can be counted and every completion that
fails puts everything back, the books are reconciled with those that went through. -/
theorem History.reconciled {first last : Books} {postings : List Posting} (h : History first postings last)
    (hkeyed : first.Keyed) (hcount : ∀ p ∈ postings, p.operation.Countable) (hclean : ∀ p ∈ postings, p.Clean) :
    Reconciled first postings last := by
  induction h with
  | start books => exact .start books
  | post p _ ih =>
    obtain ⟨hcountp, hcount⟩ := List.forall_mem_cons.1 hcount
    obtain ⟨hcleanp, hclean⟩ := List.forall_mem_cons.1 hclean
    have hbooked := Posting.booked hkeyed hcountp hcleanp
    exact (ih hbooked.keyed hcount hclean).post hbooked

/-- Posts a completion with collaborators in memory that have faults ahead of them. -/
def Posting.make (books : Books) (o : Operation) (r : Request) (faults : Faults) : Posting where
  operation := o
  request := r
  before := books
  outcome := (((o.complete r).serve World.server).run ⟨books, faults⟩).1
  after := (((o.complete r).serve World.server).run ⟨books, faults⟩).2.books
  comes := (World.server_failsCleanly fun _ => True).comes (o.complete r) (s := ⟨books, faults⟩)
    ⟨fun _ _ => trivial, fun _ _ => trivial, fun _ _ => trivial⟩

/-- Posts completions one after another, each with faults of its own. -/
def Posting.makeAll (books : Books) : List (Operation × Request × Faults) → List Posting
  | [] => []
  | (o, r, faults) :: rest => make books o r faults :: makeAll (make books o r faults).after rest

theorem History.of_makeAll (books : Books) (runs : List (Operation × Request × Faults)) :
    ∃ last, History books (Posting.makeAll books runs) last := by
  induction runs generalizing books with
  | nil => exact ⟨books, .start books⟩
  | cons run rest ih =>
    obtain ⟨last, h⟩ := ih (Posting.make books run.1 run.2.1 run.2.2).after
    exact ⟨last, .post (.make books run.1 run.2.1 run.2.2) h⟩

namespace Fixture

/-- A completion that is undone because the guild cannot be rewarded, the same one with a claim that has to be given
back on the way, and one of the pinned instance. -/
def season : List Posting :=
  Posting.makeAll halves.books [(hasty, request, { guildAdditions := 1 }), (patient, request, { counts := 1 }),
    (hasty, { request with target := 900, pinned := true }, {})]

end Fixture

open Fixture in
theorem History.reconciled_season :
    season.map (·.wentThrough) = [false, true, true] ∧ ∃ last, History halves.books season last ∧ last.Truthful ∧
      last.userTotal "user-1" = 60 ∧ last.guildTotal 7 = 190 ∧
      ∃ targets, List.Forall₂ Posting.Closes (season.filter (·.wentThrough)) targets ∧ targets.Nodup := by
  have htruthful : halves.books.Truthful := by decide +kernel
  have hcount : ∀ p ∈ season, p.operation.Countable := by decide +kernel
  obtain ⟨hclean, hthrough, huser, hguild⟩ : (∀ p ∈ season, p.Clean) ∧
      season.map (·.wentThrough) = [false, true, true] ∧
      halves.books.userTotal "user-1" + (season.map (·.userCredit halves.books "user-1")).sum = 60 ∧
      halves.books.guildTotal 7 + (season.map (·.guildCredit halves.books 7)).sum = 190 := by decide +kernel
  obtain ⟨last, h⟩ : ∃ last, History halves.books season last := History.of_makeAll halves.books _
  have hreconciled := History.reconciled h keyed_halves hcount hclean
  obtain ⟨targets, hcloses, hnodup, -⟩ := hreconciled.records
  exact ⟨hthrough, last, h, hreconciled.truthful htruthful, (hreconciled.userTotal "user-1").trans huser,
    (hreconciled.guildTotal 7).trans hguild, targets, hcloses, hnodup⟩

end Missions
