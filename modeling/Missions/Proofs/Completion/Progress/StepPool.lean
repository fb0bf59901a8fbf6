import Mathlib.Logic.Function.Basic
import Mathlib.Logic.Relation
import Missions.Proofs.Completion.Progress.Actions
import Missions.Proofs.Completion.Rollback

/-! Regular completions over the same books that take turns action by action. A participant's progress is what the
completed executions make it, until a rollback puts it back: then it is the progress that the undone run had loaded,
which other runs may have outdated meanwhile. -/

namespace Missions

structure StepPool (ι : Type) where
  books : Books
  plans : ι → Plan (Except Interruption (Except CompletionError Completion × AuditLog))
  history : List ActionRecord

namespace StepPool

section Definitions

variable {ι : Type}

/-- Runs that have not begun, each with its own settings and request. -/
def starting (books : Books) (operation : ι → Operation) (request : ι → Request) : StepPool ι where
  books := books
  plans i := (operation i).plan (request i)
  history := []

def Ended (pool : StepPool ι) (i : ι) : Prop := ∃ result audit, pool.plans i = .done (.ok (result, audit))

/-- The progress to which a rollback has put the participant back, if no run has advanced it since. -/
def putBack (pool : StepPool ι) (id : Int) : Option UInt8 :=
  (pool.history.find? fun entry => entry.Touches id).bind ActionRecord.putBack

variable [DecidableEq ι]

def play (pool : StepPool ι) (i : ι) (entry : ActionRecord)
    (next : Plan (Except Interruption (Except CompletionError Completion × AuditLog))) (books : Books) :
    StepPool ι where
  books := books
  plans := Function.update pool.plans i next
  history := entry :: pool.history

inductive Turn (pool : StepPool ι) : StepPool ι → Prop
  | act {i : ι} {here : Context} {action : StepAction} {next : CompletionResult × Context → Plan _}
      {r : CompletionResult × Context} {books : Books} (hplan : pool.plans i = .act here action next)
      (hcomes : (action.body.run here).Comes (fun _ => True) pool.books r books) :
      Turn pool (pool.play i ⟨here, action, r.1⟩ (next r) books)

def Reaches : StepPool ι → StepPool ι → Prop := Relation.ReflTransGen Turn

/-- The runs and the books agree about the records, and each participant's progress is what it was put back to, or what
the completed executions make it. -/
structure InOrder (pool : StepPool ι) (stands : ι → RunState) : Prop where
  keyed : pool.books.Keyed
  rooted : ∀ i, (stands i).ctx.Rooted pool.books
  shows : ∀ id, pool.books.Shows id (pool.putBack id)

/-- Where the runs stand, and that all is in order unless one of them has left something. -/
structure Followed (pool : StepPool ι) (stands : ι → RunState) : Prop where
  obeys : ∀ i, (pool.plans i).Obeys RunState.Final (stands i)
  regular : ∀ i, (stands i).ctx.request.pinned = false
  inOrder : (∀ i, (stands i).lapsed = false) → pool.InOrder stands

end Definitions

variable {ι : Type} {pool pool' : StepPool ι} {stands : ι → RunState}

theorem followed_starting {books : Books} (hkeyed : books.Keyed) (htruthful : books.Truthful)
    (operation : ι → Operation) {request : ι → Request} (hregular : ∀ i, (request i).pinned = false) :
    (starting books operation request).Followed
      fun i => ⟨.start ((operation i).effective (request i)), false⟩ where
  obeys i := RunState.obeys_plan (operation i) (hregular i)
  regular := hregular
  inOrder _ := ⟨hkeyed, fun _ => Context.rooted_start books _, htruthful⟩

theorem Followed.lapsed_eq_false (h : pool.Followed stands) {i : ι} (hended : pool.Ended i)
    (htells : ∀ e audit, pool.plans i = .done (.ok (.error e, audit)) → ¬ e.TellsLapse) :
    (stands i).lapsed = false := by
  obtain ⟨result, audit, hplan⟩ := hended
  have hfinal := h.obeys i
  rw [hplan] at hfinal
  refine Bool.eq_false_iff.2 fun hlapsed => ?_
  obtain ⟨e, rfl, htold⟩ := hfinal result audit rfl hlapsed
  exact htells e audit hplan htold

variable [DecidableEq ι]

theorem putBack_play {i : ι} {entry : ActionRecord} {next : Plan _} {books : Books} (id : Int) :
    (pool.play i entry next books).putBack id = if entry.Touches id then entry.putBack else pool.putBack id := by
  rw [putBack, play, List.find?_cons]
  by_cases htouches : entry.Touches id
  · simp [htouches]
  · simp [htouches, putBack]

theorem InOrder.play (h : pool.InOrder stands) {i : ι} {entry : ActionRecord} {next : Plan _} {books : Books}
    {g : RunState}
    (hsound : entry.Sound pool.books g.ctx books) :
    (pool.play i entry next books).InOrder (Function.update stands i g) where
  keyed := hsound.keyed
  rooted := (Function.forall_update_iff stands fun _ g => g.ctx.Rooted books).2
    ⟨hsound.rooted, fun k _ => (h.rooted k).sameFrames hsound.sameFrames⟩
  shows id := by
    rw [putBack_play]
    by_cases htouches : entry.Touches id
    · rw [if_pos htouches]
      exact hsound.shows id htouches
    · rw [if_neg htouches]
      exact (h.shows id).agree hsound.sameFrames (hsound.agree id htouches)

theorem Followed.turn (h : pool.Followed stands) (hturn : pool.Turn pool') : ∃ stands, pool'.Followed stands := by
  cases hturn with
  | @act i here action next r books hplan hcomes =>
    have hobeys := h.obeys i
    rw [hplan] at hobeys
    obtain ⟨rfl, hphase, hnext⟩ := hobeys
    have hrequest : r.2.request = (stands i).ctx.request :=
      (action.obeys_request (stands i).ctx pool.books).comes hcomes
    refine ⟨Function.update stands i ((stands i).after action r), fun k => ?_, ?_, fun hclear => ?_⟩
    · by_cases hk : k = i
      · subst hk
        simp only [play, Function.update_self]
        exact hnext r hrequest
      · simp only [play, Function.update_of_ne hk]
        exact h.obeys k
    · exact (Function.forall_update_iff stands fun _ g => g.ctx.request.pinned = false).2
        ⟨(congrArg Request.pinned hrequest).trans (h.regular i), fun k _ => h.regular k⟩
    · obtain ⟨hi, hothers⟩ := (Function.forall_update_iff stands fun _ g => g.lapsed = false).1 hclear
      obtain ⟨hbefore, hlapses⟩ := Bool.or_eq_false_iff.1 hi
      have hinOrder : pool.InOrder stands := by
        refine h.inOrder fun k => ?_
        by_cases hk : k = i
        · exact hk ▸ hbefore
        · exact hothers k hk
      have houtcome := (action.obeys_body hinOrder.keyed (hinOrder.rooted i) (h.regular i) hphase).comes hcomes
      exact hinOrder.play (houtcome hlapses)

theorem Followed.reaches (h : pool.Followed stands) (hreach : pool.Reaches pool') :
    ∃ stands, pool'.Followed stands := by
  induction hreach with
  | refl => exact ⟨stands, h⟩
  | tail _ hturn ih =>
    obtain ⟨_, ih⟩ := ih
    exact ih.turn hturn

/-- When the runs have ended, and none says that it could not put back its participant or give back its execution, a
participant's progress is what the completed executions make it, unless a rollback was the last to touch it: then it is
what the rollback put it back to. So every progress is what the completed executions make it exactly if every progress
that was last put back is. -/
theorem progress_settled {books : Books} (hkeyed : books.Keyed) (htruthful : books.Truthful)
    (operation : ι → Operation) (request : ι → Request) (hregular : ∀ i, (request i).pinned = false)
    (hreach : (starting books operation request).Reaches pool) (hended : ∀ i, pool.Ended i)
    (htells : ∀ i e audit, pool.plans i = .done (.ok (.error e, audit)) →
      Advance.step.name ∉ e.stepsNotUndone ∧ e.stepCause.bind CompletionError.leftClaimed = none) :
    (∀ id p m, pool.books.participants.get? id = some p → pool.books.missions.get? p.mission = some m →
      p.progress = (pool.putBack id).getD (pool.books.measure id m)) ∧
    (pool.books.Truthful ↔ ∀ id p m v, pool.books.participants.get? id = some p →
      pool.books.missions.get? p.mission = some m → pool.putBack id = some v → v = pool.books.measure id m) := by
  obtain ⟨stands, hfollowed⟩ := (followed_starting hkeyed htruthful operation hregular).reaches hreach
  have hinOrder : pool.InOrder stands := by
    refine hfollowed.inOrder fun i => hfollowed.lapsed_eq_false (hended i) fun e audit hplan htold => ?_
    obtain ⟨hname, hclaimed⟩ := htells i e audit hplan
    rcases htold with hmem | hsome
    · exact hname hmem
    · rw [hclaimed] at hsome
      cases hsome
  have hprogress := hinOrder.shows
  refine ⟨hprogress, fun hshows id p m v hp hm hv => ?_, fun hvalues id p m hp hm => ?_⟩
  · have hshown := hprogress id p m hp hm
    rw [hv] at hshown
    exact hshown.symm.trans (hshows id p m hp hm)
  · rw [hprogress id p m hp hm]
    cases hback : pool.putBack id with
    | none => rfl
    | some v => exact hvalues id p m v hp hm hback

/-- The pool after the next action of a run, and the faults still ahead. -/
def advance (now : StepPool ι × Faults) (i : ι) : StepPool ι × Faults :=
  match now.1.plans i with
  | .done _ => now
  | .act here action next =>
    let (r, w) := ((action.body.run here).serve World.server).run ⟨now.1.books, now.2⟩
    (now.1.play i ⟨here, action, r.1⟩ (next r) w.books, w.faults)

theorem advance_cases (now : StepPool ι × Faults) (i : ι) :
    advance now i = now ∨ now.1.Turn (advance now i).1 := by
  have hhands : now.2.Hands fun _ => True := ⟨fun _ _ => trivial, fun _ _ => trivial, fun _ _ => trivial⟩
  rw [advance]
  split
  · exact .inl rfl
  · next here action next hplan =>
    exact .inr (.act hplan ((World.server_failsCleanly fun _ => True).comes (action.body.run here)
      (s := ⟨now.1.books, now.2⟩) hhands))

theorem reaches_foldl_advance (now : StepPool ι × Faults) (order : List ι) : now.1.Reaches
    (order.foldl advance now).1 := by
  refine List.foldlRecOn (motive := fun now' : StepPool ι × Faults => now.1.Reaches now'.1) order advance
    (show now.1.Reaches now.1 from .refl) fun now' hreach i _ => ?_
  rcases advance_cases now' i with heq | hturn
  · rwa [heq]
  · exact hreach.tail hturn

end StepPool

theorem Books.truthful_iff {books : Books} : books.Truthful ↔ ∀ row ∈ books.participants.rows,
    ∀ m ∈ books.missions.get? row.2.mission, row.2.progress = books.measure row.1 m := by
  constructor
  · exact fun h row hrow m hm => h row.1 row.2 m ((Table.get?_eq_some_iff _).2 hrow) hm
  · exact fun h id p m hp hm => h (id, p) ((Table.get?_eq_some_iff _).1 hp) m hm

instance (books : Books) : Decidable books.Truthful := decidable_of_iff' _ Books.truthful_iff

namespace Fixture

/-- A mission of two executions, both of them open, whose guild cannot be rewarded. -/
def halves : World :=
  (guild ++ [Disturbance.putMission { mission with guild := some 7, guildExperience := 20, totalExecutions := 2 },
    .putExecution { execution with id := 501 }, .failGuildAdditions 2]).foldl World.disturb {}

/-- Two runs for one request. The second one loads the participant after the first one has advanced it, and advances it
after the first one has put it back. -/
def outdated : StepPool Bool :=
  let order := [false, false, false, true] ++ List.replicate 8 false ++ List.replicate 8 true
  (order.foldl StepPool.advance (.starting halves.books (fun _ => hasty) fun _ => request, halves.faults)).1

/-- The steps that a run in a pool has named as not undone, and whether it has left an execution claimed. -/
def lapse? : Plan (Except Interruption (Except CompletionError Completion × AuditLog)) → Option (List String × Bool)
  | .done (.ok (.error e, _)) => some (e.stepsNotUndone, (e.stepCause.bind CompletionError.leftClaimed).isSome)
  | _ => none

-- one conjunction, so that the runs are worked out only once
theorem outdated_facts : (∀ i, lapse? (outdated.plans i) = some ([], false)) ∧ outdated.putBack 10 = some 50 ∧
    (∃ p, outdated.books.participants.get? 10 = some p ∧
      (outdated.books.missions.get? p.mission).map (outdated.books.measure 10) = some 0) ∧
    ¬ outdated.books.Truthful := by
  decide +kernel

theorem ended_outdated (i : Bool) : outdated.Ended i := by
  have hlapse := outdated_facts.1 i
  rw [StepPool.Ended]
  generalize outdated.plans i = plan at hlapse ⊢
  obtain ⟨i | ⟨e | completion, audit⟩⟩ | _ := plan
  · cases hlapse
  · exact ⟨.error e, audit, rfl⟩
  · cases hlapse
  · cases hlapse

theorem undone_outdated (i : Bool) (e : CompletionError) (audit : AuditLog)
    (h : outdated.plans i = .done (.ok (.error e, audit))) :
    Advance.step.name ∉ e.stepsNotUndone ∧ e.stepCause.bind CompletionError.leftClaimed = none := by
  have hlapse := outdated_facts.1 i
  rw [h] at hlapse
  obtain ⟨hnames, hclaimed⟩ := Prod.mk.inj (Option.some.inj hlapse)
  rw [hnames]
  exact ⟨List.not_mem_nil, Option.isNone_iff_eq_none.1 (Option.isSome_eq_false_iff.1 hclaimed)⟩

theorem reaches_outdated : (StepPool.starting halves.books (fun _ => hasty) fun _ => request).Reaches outdated :=
  StepPool.reaches_foldl_advance (.starting halves.books (fun _ => hasty) fun _ => request, halves.faults) _

theorem keyed_halves : halves.books.Keyed := World.keyed_foldl_disturb .empty _

end Fixture

open Fixture in
/-- Both runs are undone, and the last one has put back the progress that the first one had made. -/
theorem StepPool.progress_settled_outdated :
    outdated.putBack 10 = some 50 ∧ (∃ p, outdated.books.participants.get? 10 = some p ∧ p.progress = 50) ∧
      ¬ outdated.books.Truthful := by
  have htruthful : halves.books.Truthful := by decide +kernel
  obtain ⟨-, hback, ⟨p, hp, hmeasure⟩, -⟩ := outdated_facts
  obtain ⟨m, hm, hnothing⟩ := Option.map_eq_some_iff.1 hmeasure
  obtain ⟨hprogress, hexact⟩ := StepPool.progress_settled keyed_halves htruthful (fun _ => hasty) (fun _ => request)
    (fun _ => rfl) reaches_outdated ended_outdated undone_outdated
  have hshown := hprogress 10 p m hp hm
  rw [hback] at hshown
  refine ⟨hback, ⟨p, hp, hshown⟩, fun htrue => ?_⟩
  have hsame := hexact.1 htrue 10 p m 50 hp hm hback
  rw [hnothing] at hsame
  cases hsame

open Fixture in
/-- Runs that have ended and were undone without a failure may leave a progress that no completed execution makes. -/
theorem StepPool.progress_goes_stale :
    halves.books.Truthful ∧ (starting halves.books (fun _ => hasty) fun _ => request).Reaches outdated ∧
      (∀ i, outdated.Ended i) ∧ (∀ i e audit, outdated.plans i = .done (.ok (.error e, audit)) →
        Advance.step.name ∉ e.stepsNotUndone ∧ e.stepCause.bind CompletionError.leftClaimed = none) ∧
      ¬ outdated.books.Truthful := by
  have htruthful : halves.books.Truthful := by decide +kernel
  obtain ⟨-, -, -, hstale⟩ := outdated_facts
  exact ⟨htruthful, reaches_outdated, ended_outdated, undone_outdated, hstale⟩

end Missions
