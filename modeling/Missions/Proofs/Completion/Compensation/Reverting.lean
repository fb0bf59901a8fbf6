import Missions.Proofs.Completion.Compensation.Records

namespace Missions

open Procedure

def CompletionError.of? {α : Type} : Except CompletionError α → Option CompletionError
  | .ok _ => none
  | .error e => some e

/-- The protocol of a caller that is alone with the books, where no call fails, with the calls noted that write. -/
abbrev Restoration.protocol : Protocol Context (Books × List Call) :=
  (Books.protocol (fun _ => False) Context).noting Note.writes

/-- A procedure ends as a restoration tells, in a context like the one before. -/
def Restoration.Ends {α : Type} (ctx : Context) (writes : List Call) (restoration : Restoration Books)
    (r : Except CompletionError α) (ctx' : Context) (g : Books × List Call) : Prop :=
  ctx.UndoneAlike ctx' ∧ CompletionError.of? r = restoration.failure ∧
    g = (restoration.store, writes ++ restoration.writes)

variable {ctx : Context} {books : Books} {writes : List Call}

theorem Restoration.ends_quiet {α : Type} {r : Except CompletionError α} {failure : Option CompletionError}
    (h : CompletionError.of? r = failure) : Ends ctx writes ⟨failure, [], books⟩ r ctx (books, writes) :=
  ⟨.refl ctx, h, by rw [List.append_nil]⟩

namespace Procedure

theorem meets_read {c : Call} (hc : c.method.writes = false)
    {Q : Except CompletionError c.Answer → Context → Books × List Call → Prop} :
    Meets (α := no_index _) Restoration.protocol (ask c) Q ctx (books, writes) ↔
      Q (.ok (books.perform c).1) ctx (books, writes) := by
  have hclaim (id : Int) : c ≠ .completeExecution id := by
    rintro rfl
    cases hc
  rw [meets_ask_noting, meets_ask_books hclaim, Books.perform_of_not_writes hc, Note.writes, hc]
  simp

theorem meets_write {c : Call} (hc : c.method.writes = true) (hclaim : ∀ id, c ≠ .completeExecution id)
    {Q : Except CompletionError c.Answer → Context → Books × List Call → Prop} :
    Meets (α := no_index _) Restoration.protocol (ask c) Q ctx (books, writes) ↔
      Q (.ok (books.perform c).1) ctx ((books.perform c).2, writes ++ [c]) := by
  rw [meets_ask_noting, meets_ask_books hclaim, Note.writes, hc]
  simp

end Procedure

/-! ### The rules of a guard -/

namespace Guard

variable {R V S α : Type} [DecidableEq V] {g : Guard R V S} {before after : V} {put : S → Books}

theorem meets_unmarked (hbooks : put g.store = books) (hmarks : g.marks = none) {a : α} :
    (pure a : Procedure α).Meets Restoration.protocol (Restoration.Ends ctx writes (g.settle.map put)) ctx
      (books, writes) := by
  subst hbooks
  rw [settle_unmarked hmarks]
  exact Restoration.ends_quiet rfl

theorem meets_require (hbooks : put g.store = books) (hmarks : g.marks = some (before, after)) {record : Option R}
    {otherwise : CompletionError} (hstored : g.stored = found record otherwise) {f : R → Procedure α}
    (hf : ∀ r, g.stored = .ok r → (f r).Meets Restoration.protocol (Restoration.Ends ctx writes (g.settle.map put)) ctx
      (books, writes)) :
    (require record otherwise >>= f).Meets Restoration.protocol (Restoration.Ends ctx writes (g.settle.map put)) ctx
      (books, writes) := by
  subst hbooks
  rw [meets_bind]
  cases record with
  | some r => exact hf r hstored
  | none =>
    rw [settle_missing hmarks hstored]
    exact Restoration.ends_quiet rfl

/-- What a step does with what is stored: it goes by the value from before first, then by the one after. -/
theorem meets_stored (hbooks : put g.store = books) (hmarks : g.marks = some (before, after)) {r : R}
    (hstored : g.stored = .ok r) {already other : Prop} [Decidable already] [Decidable other]
    (halready : already ↔ g.value r = before) (hother : other ↔ g.value r ≠ after) {a : α} {restore : Procedure α}
    (hrestore : restore.Meets Restoration.protocol
      (Restoration.Ends ctx writes ⟨none, [g.write r before], put (g.restored r before)⟩) ctx (books, writes)) :
    (if already then pure a else if other then throw (g.conflict r after) else restore).Meets Restoration.protocol
      (Restoration.Ends ctx writes (g.settle.map put)) ctx (books, writes) := by
  subst hbooks
  split
  · next h =>
    rw [settle_already hmarks hstored (halready.1 h)]
    exact Restoration.ends_quiet rfl
  · next h =>
    split
    · next h' =>
      rw [settle_conflict hmarks hstored (mt halready.2 h) (hother.1 h')]
      exact Restoration.ends_quiet rfl
    · next h' =>
      have hafter : g.value r = after := Decidable.not_not.1 (mt hother.2 h')
      have hmoved : g.Moved r before after :=
        ⟨hmarks, hstored, hafter, fun heq => h (halready.2 (hafter.trans heq))⟩
      rw [hmoved.settle]
      exact hrestore

end Guard

namespace UserReward

def restoration (ctx : Context) (books : Books) : Restoration Books :=
  (guard ctx books).settle.map fun totals => { books with userTotals := totals }

theorem meets_revert_guarded : revert.Meets Restoration.protocol
    (Restoration.Ends ctx writes (restoration ctx books)) ctx (books, writes) := by
  rw [revert, restoration, meets_bind, meets_get]
  dsimp only
  split
  · next before after amount hbefore hafter hgranted =>
    have hmarks : ctx.reward = ⟨some before, some after, some amount⟩ := by
      rw [Context.reward, hbefore, hafter, hgranted]
    have hspan : (guard ctx books).marks = some (before, after) :=
      Context.RewardMarks.span_eq_some.2 ⟨amount, hmarks⟩
    rw [meets_bind, meets_read rfl]
    refine Guard.meets_stored rfl hspan rfl .rfl .rfl ?_
    rw [meets_bind, meets_write rfl (by simp)]
    refine ⟨.withLevelAfter ctx _, rfl, ?_⟩
    simp only [guard, Guard.ofTotal, hmarks]
    rfl
  · next hmissing => exact Guard.meets_unmarked rfl (Context.RewardMarks.span_eq_none hmissing)

end UserReward

namespace GuildReward

def restoration (guild mission : Int) (ctx : Context) (books : Books) : Restoration Books :=
  (guard guild mission ctx books).settle.map fun totals => { books with guildTotals := totals }

theorem meets_revert_guarded {guild : Int} {m : Mission} (hguild : ctx.guild = some guild)
    (hmission : ctx.mission = some m) : revert.Meets Restoration.protocol
      (Restoration.Ends ctx writes (restoration guild m.id ctx books)) ctx (books, writes) := by
  have hid : ctx.missionId = some m.id := by rw [Context.missionId, hmission, Option.map_some]
  rw [revert, restoration, meets_bind, meets_get]
  dsimp only
  rw [hguild]
  split
  · next guild' before after amount heq hbefore hafter hgranted =>
    obtain rfl := Option.some.inj heq
    have hmarks : ctx.guildReward = ⟨some before, some after, some amount⟩ := by
      rw [Context.guildReward, hbefore, hafter, hgranted]
    have hspan : (guard guild m.id ctx books).marks = some (before, after) :=
      Context.RewardMarks.span_eq_some.2 ⟨amount, hmarks⟩
    rw [meets_bind, meets_read rfl]
    refine Guard.meets_stored rfl hspan rfl .rfl .rfl ?_
    simp only [credit, hid, meets_require_some, meets_bind, meets_get, meets_pure]
    rw [meets_write rfl (by simp)]
    refine ⟨.refl ctx, rfl, ?_⟩
    simp only [guard, Guard.ofTotal, hmarks]
    rfl
  · next hmissing =>
    exact Guard.meets_unmarked rfl (Context.RewardMarks.span_eq_none fun before after amount =>
      hmissing guild before after amount rfl)

end GuildReward

namespace Closing

def restoration (id : Int) (ctx : Context) (books : Books) : Restoration Books :=
  (guard id ctx books).settle.map fun instances => { books with instances }

theorem meets_revert_guarded (hkeyed : books.Keyed) {i : Instance} (hi : ctx.pinned = some i) :
    revert.Meets Restoration.protocol (Restoration.Ends ctx writes (restoration i.id ctx books)) ctx
      (books, writes) := by
  rw [revert, restoration, meets_bind, meets_get]
  dsimp only
  split
  · next before after hbefore hafter =>
    have hspan : (guard i.id ctx books).marks = some (before, after) := by
      simp only [guard, Guard.ofStatus, Context.ClosingMarks.span, Context.closing, hbefore, hafter]
    rw [hi, meets_bind, meets_require_some]
    dsimp only
    generalize i.id = id at hspan ⊢
    rw [meets_bind, meets_read rfl]
    refine Guard.meets_require rfl hspan rfl fun current hstored => ?_
    refine Guard.meets_stored rfl hspan hstored .rfl .rfl ?_
    obtain rfl : current.id = id := hkeyed.instances id current (Guard.found_eq_ok.1 hstored)
    rw [meets_bind, meets_write rfl (by simp)]
    exact ⟨.withInstanceStatus ctx before, rfl, rfl⟩
  · next hmissing => exact Guard.meets_unmarked rfl (Context.ClosingMarks.span_eq_none hmissing)

end Closing

namespace Advance

def unrestored : Option CompletionError → Option CompletionError → Option CompletionError
  | none, none => none
  | execution, participant => some (.partialRestore (execution.toList ++ participant.toList))

/-- What the two guards settle, as one: either record is put back whether or not the other can be. -/
def restoration (id mission : Int) (ctx : Context) (books : Books) : Restoration Books :=
  let execution := (executionGuard id ctx books).settle
  let participant := (participantGuard mission ctx books).settle
  { failure := unrestored execution.failure participant.failure
    writes := execution.writes ++ participant.writes
    store := { books with executions := execution.store, participants := participant.store } }

theorem meets_restoreExecution_guarded (hkeyed : books.Keyed) {id : Int} {before after : ExecutionStatus}
    (hspan : ctx.closing.span = some (before, after)) :
    (restoreExecution id before after).Meets Restoration.protocol
      (Restoration.Ends ctx writes
        ((executionGuard id ctx books).settle.map fun executions => { books with executions }))
      ctx (books, writes) := by
  rw [restoreExecution, meets_bind, meets_read rfl]
  refine Guard.meets_require rfl hspan rfl fun current hstored => ?_
  refine Guard.meets_stored rfl hspan hstored .rfl .rfl ?_
  obtain rfl : current.id = id := hkeyed.executions id current (Guard.found_eq_ok.1 hstored)
  rw [meets_bind, meets_write rfl (by simp)]
  exact ⟨.refl ctx, rfl, rfl⟩

theorem meets_restoreParticipant_guarded {mission : Int} (hclosed : ctx.closing.span.isSome) :
    (restoreParticipant mission).Meets Restoration.protocol
      (Restoration.Ends ctx writes
        ((participantGuard mission ctx books).settle.map fun participants => { books with participants }))
      ctx (books, writes) := by
  obtain ⟨statuses, hstatuses⟩ := Option.isSome_iff_exists.1 hclosed
  rw [restoreParticipant, meets_bind, meets_get]
  dsimp only
  split
  · next progress status progress' status' hprogress hstatus hprogress' hstatus' =>
    have hspan : (participantGuard mission ctx books).marks = some ((progress, status), (progress', status')) := by
      simp only [participantGuard, Context.ClosingMarks.standings, hstatuses]
      simp only [Context.closing, hprogress, hstatus, hprogress', hstatus']
    rw [meets_bind, meets_read rfl]
    refine Guard.meets_require rfl hspan rfl fun current hstored => ?_
    have hvalue (p : UInt8) (s : ParticipantStatus) : (current.progress = p ∧ current.status = s) ↔
        (participantGuard mission ctx books).value current = (p, s) := by
      rw [participantGuard, Prod.mk.injEq]
    refine Guard.meets_stored rfl hspan hstored (hvalue progress status) ?_ ?_
    · exact Classical.not_and_iff_not_or_not.symm.trans (not_congr (hvalue progress' status'))
    · rw [meets_bind, meets_write rfl (by simp)]
      exact ⟨.refl ctx, rfl, rfl⟩
  · next hmissing => exact Guard.meets_unmarked rfl (Context.ClosingMarks.standings_eq_none hmissing)

theorem participantGuard_alike {ctx' : Context} (h : ctx.UndoneAlike ctx') (mission : Int)
    (executions : Table Int Execution) :
    participantGuard mission ctx' { books with executions } = participantGuard mission ctx books := by
  rw [participantGuard, h.closing, h.request]
  rfl

theorem meets_revert_guarded (hkeyed : books.Keyed) {m : Mission} {x : Execution} (hm : ctx.mission = some m)
    (hx : ctx.execution = some x) : revert.Meets Restoration.protocol
      (Restoration.Ends ctx writes (restoration x.id m.id ctx books)) ctx (books, writes) := by
  rw [revert, meets_bind, meets_get]
  dsimp only
  split
  · next before after hbefore hafter =>
    have hspan : ctx.closing.span = some (before, after) := by
      simp only [Context.ClosingMarks.span, Context.closing, hbefore, hafter]
    rw [hx, hm, meets_bind, meets_require_some]
    dsimp only
    rw [meets_bind, meets_require_some]
    dsimp only
    rw [meets_bind, meets_outcome]
    refine (meets_restoreExecution_guarded hkeyed hspan).mono fun r ctx₁ g h => ?_
    obtain ⟨halike, hexecution, rfl⟩ := h
    dsimp only
    rw [meets_bind, meets_modify]
    dsimp only
    have halike : ctx.UndoneAlike (if r.isOk then ctx₁.withExecutionStatus before else ctx₁) := by
      split
      · exact halike.trans (.withExecutionStatus ctx₁ before)
      · exact halike
    generalize (if r.isOk then ctx₁.withExecutionStatus before else ctx₁) = ctx₁ at halike ⊢
    rw [meets_bind, meets_outcome]
    have hclosed : ctx₁.closing.span.isSome := by rw [halike.closing, hspan, Option.isSome_some]
    refine (meets_restoreParticipant_guarded hclosed).mono fun r' ctx₂ g h => ?_
    obtain ⟨halike', hparticipant, rfl⟩ := h
    simp only [Restoration.map, participantGuard_alike halike] at hexecution hparticipant ⊢
    rw [meets_bind, meets_modify]
    dsimp only
    have hwritten : writes ++ (executionGuard x.id ctx books).settle.writes ++
        (participantGuard m.id ctx books).settle.writes = writes ++ (restoration x.id m.id ctx books).writes :=
      List.append_assoc ..
    rw [hwritten]
    have hfailure : (restoration x.id m.id ctx books).failure =
        unrestored (CompletionError.of? r) (CompletionError.of? r') := by
      rw [hexecution, hparticipant]
      rfl
    have halike := halike.trans halike'
    cases r' with
    | error e' => rcases r with e | _ | _ <;> exact ⟨halike, hfailure.symm, rfl⟩
    | ok participant =>
      cases participant with
      | none => rcases r with e | _ | _ <;> exact ⟨halike, hfailure.symm, rfl⟩
      | some p =>
        have halike := halike.trans (.withParticipant ctx₂ p)
        rcases r with e | _ | _ <;> exact ⟨halike, hfailure.symm, rfl⟩
  · next hmissing =>
    have hspan : ctx.closing.span = none := Context.ClosingMarks.span_eq_none hmissing
    have hexecution := Guard.settle_unmarked (g := executionGuard x.id ctx books) hspan
    have hparticipant := Guard.settle_unmarked (g := participantGuard m.id ctx books)
      (Context.ClosingMarks.standings_eq_none_of_span hspan)
    rw [restoration, hexecution, hparticipant]
    exact Restoration.ends_quiet rfl

end Advance

end Missions
