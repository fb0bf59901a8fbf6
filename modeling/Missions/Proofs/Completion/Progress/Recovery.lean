import Missions.Proofs.Completion.Rollback
import Missions.Proofs.Saga.Attempts
import Missions.Proofs.Saga.Serving

/-! An attempt to close an execution that fails leaves the books as they were and of the context only what it had
kept, or it says that the execution stays claimed and why. -/

namespace Missions.Advance

open Procedure

/-- The context agrees with the books on an execution and its participant, and so do its snapshots with the books before
and after. -/
structure Agrees (ctx : Context) (p : Participant) (x : Execution) (before after : Books) : Prop where
  execution : ctx.execution = after.executions.get? x.id
  participant : ctx.participant = after.participants.get? p.id
  progress : ctx.progress = (after.participants.get? p.id).map (·.progress)
  closing : ctx.closing =
    { targetBefore := (before.executions.get? x.id).map (·.status)
      targetAfter := (after.executions.get? x.id).map (·.status)
      progressBefore := (before.participants.get? p.id).map (·.progress)
      progressAfter := (after.participants.get? p.id).map (·.progress)
      participantBefore := (before.participants.get? p.id).map (·.status)
      participantAfter := (after.participants.get? p.id).map (·.status) }

/-- How an attempt ends: with what it reports, the context, the books and the errors that it was answered. -/
structure Recovers (ctx : Context) (m : Mission) (p : Participant) (x : Execution) (books : Books)
    (result : CompletionResult) (ctx' : Context) (books' : Books) (errors : List CompletionError) : Prop where
  caused : result.isSuccess = result.cause.isNone
  clean : ∀ e, result.cause = some e → e.leftClaimed = none → books' = books ∧ ctx' = begun ctx p x
  stuck : ∀ e id, result.cause = some e → e.leftClaimed = some id →
    books' = books.putExecution { x with status := .completed } ∧ ctx' = begun ctx p x ∧
      result.failureKind = some .validation ∧ ∃ e₁ e₂, e = .executionNotReleased x.id e₁ e₂ ∧ errors = [e₁, e₂]
  success : result.isSuccess = true → books' = books.closed (.regular m p x) ∧
    ctx' = ended (begun ctx p x) (books.advanced m p x) ∧ Agrees ctx' p x books books'

variable {ctx : Context} {m : Mission} {p : Participant} {x : Execution} {books : Books}

theorem meets_update_recovers (hm : ctx.mission = some m) (hp : ctx.participant = some p) (hx : ctx.execution = some x)
    (hstored : books.executions.get? x.id = some x) :
    update.Meets ((Books.protocol (·.leftClaimed = none) Context).noting Note.errors) (Either
      (fun ctx' g => ctx' = ended (begun ctx p x) (books.advanced m p x) ∧ g.1 = books.closed (.regular m p x))
      fun e ctx' g => ctx' = begun ctx p x ∧
        (e.leftClaimed = none ∧ g.1 = books ∨
          ∃ e₁ e₂, e = .executionNotReleased x.id e₁ e₂ ∧
            g = (books.putExecution { x with status := .completed }, [e₁, e₂]))) ctx (books, []) := by
  refine (meets_update_attempt hm hp hx).mono fun r ctx' g h => ?_
  have hclaim {claimed : Books} (hclaimed : books.completeExecution x.id = (true, claimed)) :
      x.status = .inProgress ∧ claimed = books.putExecution { x with status := .completed } := by
    simp only [Books.completeExecution, hstored] at hclaimed
    split at hclaimed
    · next hstatus => exact ⟨hstatus, (Prod.mk.inj hclaimed).2.symm⟩
    · cases hclaimed
  cases h with
  | lost => exact ⟨rfl, .inl ⟨rfl, rfl⟩⟩
  | refused he => exact ⟨rfl, .inl ⟨he, rfl⟩⟩
  | released hclaimed he =>
    obtain ⟨hstatus, rfl⟩ := hclaim hclaimed
    refine ⟨rfl, .inl ⟨he, ?_⟩⟩
    rw [← hstatus]
    exact Books.putExecution_putExecution hstored rfl
  | stuck hclaimed he he' =>
    obtain ⟨-, rfl⟩ := hclaim hclaimed
    exact ⟨rfl, .inr ⟨_, _, rfl, rfl⟩⟩
  | closed hclaimed hupdated =>
    obtain ⟨-, rfl⟩ := hclaim hclaimed
    subst hupdated
    exact ⟨rfl, rfl⟩

theorem agrees_ended (hx : ctx.execution = some x) (hexecution : books.executions.get? x.id = some x)
    (hparticipant : books.participants.get? p.id = some p) :
    Agrees (ended (begun ctx p x) (books.advanced m p x)) p x books (books.closed (.regular m p x)) := by
  have hexecution' : (books.closed (.regular m p x)).executions.get? x.id = some { x with status := .completed } :=
    Table.get?_insert_self _ _ _
  have hparticipant' : (books.closed (.regular m p x)).participants.get? p.id = some (books.advanced m p x) :=
    Table.get?_insert_self _ _ _
  have hrecords := records_ended (begun ctx p x) (books.advanced m p x)
  have hloaded : (begun ctx p x).execution = some x :=
    (congrArg Context.Records.execution (facets_begun ctx p x).2.2).trans hx
  refine ⟨?_, ?_, ?_, ?_⟩
  · refine (congrArg Context.Records.execution hrecords).trans ?_
    rw [hexecution', hloaded]
    rfl
  · rw [hparticipant']
    exact congrArg Context.Records.participant hrecords
  · rw [hparticipant']
    rfl
  · rw [closing_ended, closing_begun, hexecution, hparticipant, hexecution', hparticipant']
    rfl

theorem obeys_execute (hm : ctx.mission = some m) (hp : ctx.participant = some p) (hx : ctx.execution = some x)
    (hexecution : books.executions.get? x.id = some x) (hparticipant : books.participants.get? p.id = some p) :
    (step.execute.run ctx).Obeys ((Books.protocol (·.leftClaimed = none) Context).noting Note.errors)
      (fun r g => Recovers ctx m p x books r.1 r.2 g.1 g.2) (books, []) := by
  refine (meets_update_recovers hm hp hx hexecution).settle.mono fun r g hr => ?_
  obtain ⟨result, ctx'⟩ := r
  cases hok : result.isSuccess with
  | true =>
    obtain ⟨rfl, hbooks⟩ := hr.of_isSuccess hok
    have hnone := StepResult.cause_of_isSuccess hok
    refine ⟨by rw [hok, hnone]; rfl, ?_, ?_, fun _ => ⟨hbooks, rfl, ?_⟩⟩
    · exact fun e he => nomatch hnone.symm.trans he
    · exact fun e id he => nomatch hnone.symm.trans he
    · rw [hbooks]
      exact agrees_ended hx hexecution hparticipant
  | false =>
    obtain ⟨e, hcause, hrejected, rfl, hleft⟩ := hr.of_failed hok
    refine ⟨by rw [hok, hcause]; rfl, ?_, ?_, fun h => absurd (hok.symm.trans h) Bool.false_ne_true⟩
    · rintro e' he' hclean
      obtain rfl := Option.some.inj (hcause.symm.trans he')
      obtain ⟨-, hbooks⟩ | ⟨e₁, e₂, rfl, -⟩ := hleft
      · exact ⟨hbooks, rfl⟩
      · cases hclean
    · rintro e' id he' hstuck
      obtain rfl := Option.some.inj (hcause.symm.trans he')
      obtain ⟨hclean, -⟩ | ⟨e₁, e₂, rfl, rfl⟩ := hleft
      · cases hclean.symm.trans hstuck
      · exact ⟨rfl, rfl, StepResult.failureKind_of_isRejected hrejected, e₁, e₂, rfl, rfl⟩

/-! ### Attempts in a row -/

section

variable {S : Type} {server : Server S} {view : S → Books} {good : S → Prop}

theorem served_recovers (hserver : server.FailsCleanly (·.leftClaimed = none) view good) {s : S} (hs : good s)
    (hm : ctx.mission = some m) (hp : ctx.participant = some p) (hx : ctx.execution = some x)
    (hexecution : (view s).executions.get? x.id = some x) (hparticipant : (view s).participants.get? p.id = some p) :
    ∃ result ctx' s' errors, ((step.execute.run ctx).serve server).run s = ((result, ctx'), s') ∧
      ((step.execute.run ctx).serve (server.noting Note.errors)).run (s, []) = ((result, ctx'), (s', errors)) ∧
      Recovers ctx m p x (view s) result ctx' (view s') errors ∧ good s' := by
  obtain ⟨result, ctx', ⟨s', errors⟩, hrun, hrecovers, hgood⟩ :=
    (obeys_execute hm hp hx hexecution hparticipant).served ((hserver.governs Context).noting Note.errors)
      (w := (s, [])) hs
  have hnoted := Program.serve_of_served hrun
  exact ⟨result, ctx', s', errors, Program.serve_of_noting hnoted, hnoted, hrecovers, hgood⟩

theorem served_execute (hserver : server.FailsCleanly (·.leftClaimed = none) view good) {s : S} (hs : good s)
    (hm : ctx.mission = some m) (hp : ctx.participant = some p) (hx : ctx.execution = some x)
    (hexecution : (view s).executions.get? x.id = some x) (hparticipant : (view s).participants.get? p.id = some p) :
    ∃ result ctx' s' errors, (step.served server).execute.run (ctx, s) = pure (result, (ctx', s')) ∧
      Recovers ctx m p x (view s) result ctx' (view s') errors ∧ good s' := by
  obtain ⟨result, ctx', s', errors, hrun, -, hrecovers, hgood⟩ :=
    served_recovers hserver hs hm hp hx hexecution hparticipant
  refine ⟨result, ctx', s', errors, ?_, hrecovers, hgood⟩
  change (step.execute.run ctx).served server s = _
  rw [Program.served, hrun]

/-- After failures that left nothing claimed, an attempt that succeeds closes the execution as the first one would
have. -/
theorem stateAfter_failures (hserver : server.FailsCleanly (·.leftClaimed = none) view good)
    (hm : ctx.mission = some m) (hp : ctx.participant = some p) (hx : ctx.execution = some x) {s : S} (hs : good s)
    (hexecution : (view s).executions.get? x.id = some x) (hparticipant : (view s).participants.get? p.id = some p)
    {failures : ℕ} (hfailed : ∀ k < failures, ∃ e, ((step.served server).reports (ctx, s) k).cause = some e ∧
      e.leftClaimed = none) (hsucceeded : ((step.served server).reports (ctx, s) failures).isSuccess = true) :
    ((step.served server).stateAfter (ctx, s) (failures + 1)).1 =
        ended (begun ctx p x) ((view s).advanced m p x) ∧
      view ((step.served server).stateAfter (ctx, s) (failures + 1)).2 = (view s).closed (.regular m p x) := by
  -- on the failures, with the state after the first of them
  induction failures generalizing ctx s with
  | zero =>
    obtain ⟨result, ctx', s', errors, hrun, hrecovers, -⟩ :=
      served_execute hserver hs hm hp hx hexecution hparticipant
    rw [Step.reports_zero, hrun] at hsucceeded
    rw [Step.stateAfter_succ, hrun]
    obtain ⟨hview, rfl, -⟩ := hrecovers.success hsucceeded
    exact ⟨rfl, hview⟩
  | succ failures ih =>
    obtain ⟨result, ctx', s', errors, hrun, hrecovers, hs'⟩ :=
      served_execute hserver hs hm hp hx hexecution hparticipant
    have hreports : (fun k => (step.served server).reports (ctx, s) (k + 1)) =
        (step.served server).reports (ctx', s') := by
      rw [Step.reports_succ, hrun]
      rfl
    obtain ⟨e, hcause, hclean⟩ := hfailed 0 (Nat.succ_pos failures)
    rw [Step.reports_zero, hrun] at hcause
    obtain ⟨hview, rfl⟩ := hrecovers.clean e hcause hclean
    obtain ⟨hbrief, -, hrecords⟩ := facets_begun ctx p x
    have hm' : (begun ctx p x).mission = some m := (congrArg Context.Brief.mission hbrief).trans hm
    have hp' : (begun ctx p x).participant = some p := (congrArg Context.Records.participant hrecords).trans hp
    have hx' : (begun ctx p x).execution = some x := (congrArg Context.Records.execution hrecords).trans hx
    rw [← hview] at hexecution hparticipant
    have hended := ih hm' hp' hx' hs' hexecution hparticipant
      (fun k hk => hreports ▸ hfailed (k + 1) (Nat.succ_lt_succ hk)) (hreports ▸ hsucceeded)
    rw [begun_begun, hview] at hended
    rw [Step.stateAfter_succ, hrun]
    exact hended

end

/-- An attempt that fails leaves the books as they were, unless it rejects the request because the execution stays
claimed; one that succeeds leaves the context and its snapshots in agreement with the books. Failures that left nothing
claimed do not show once an attempt has succeeded. -/
theorem execute_recovers {S : Type} {server : Server S} {view : S → Books} {good : S → Prop}
    (hserver : server.FailsCleanly (·.leftClaimed = none) view good) {s : S} (hs : good s)
    (hm : ctx.mission = some m) (hp : ctx.participant = some p) (hx : ctx.execution = some x)
    (hexecution : (view s).executions.get? x.id = some x) (hparticipant : (view s).participants.get? p.id = some p) :
    (∃ result ctx' s' errors, ((step.execute.run ctx).serve server).run s = ((result, ctx'), s') ∧
      ((step.execute.run ctx).serve (server.noting Note.errors)).run (s, []) = ((result, ctx'), (s', errors)) ∧
      Recovers ctx m p x (view s) result ctx' (view s') errors) ∧
    ∀ (failures : ℕ) (t : S),
      (∀ k < failures, ∃ e, ((step.served server).reports (ctx, s) k).cause = some e ∧ e.leftClaimed = none) →
      ((step.served server).reports (ctx, s) failures).isSuccess = true →
      good t → view t = view s → ((step.served server).reports (ctx, t) 0).isSuccess = true →
      ((step.served server).stateAfter (ctx, s) (failures + 1)).1 = ((step.served server).stateAfter (ctx, t) 1).1 ∧
        view ((step.served server).stateAfter (ctx, s) (failures + 1)).2 =
          view ((step.served server).stateAfter (ctx, t) 1).2 := by
  constructor
  · obtain ⟨result, ctx', s', errors, hrun, hnoted, hrecovers, -⟩ :=
      served_recovers hserver hs hm hp hx hexecution hparticipant
    exact ⟨result, ctx', s', errors, hrun, hnoted, hrecovers⟩
  · intro failures t hfailed hsucceeded ht hview hsingle
    obtain ⟨hctx, hbooks⟩ := stateAfter_failures hserver hm hp hx hs hexecution hparticipant hfailed hsucceeded
    rw [← hview] at hexecution hparticipant
    obtain ⟨hctx', hbooks'⟩ := stateAfter_failures hserver hm hp hx ht hexecution hparticipant
      (fun k hk => absurd hk (Nat.not_lt_zero k)) hsingle
    rw [hctx, hbooks, hctx', hbooks', hview]
    exact ⟨rfl, rfl⟩

end Missions.Advance

namespace Missions

namespace Fixture

def faltering : World := (plain ++ [Disturbance.failCounts 2]).foldl World.disturb {}

def steady : World := plain.foldl World.disturb {}

end Fixture

open Fixture in
theorem Advance.execute_recovers_faltering :
    (∀ k < 2, ∃ e, ((step.served World.server).reports (loaded, faltering) k).cause = some e ∧
      e.leftClaimed = none) ∧
    ((step.served World.server).stateAfter (loaded, faltering) 3).1 =
      ((step.served World.server).stateAfter (loaded, steady) 1).1 ∧
    ((step.served World.server).stateAfter (loaded, faltering) 3).2.books =
      ((step.served World.server).stateAfter (loaded, steady) 1).2.books ∧
    ∃ result ctx' w errors, ((step.execute.run loaded).serve World.server).run sticky = ((result, ctx'), w) ∧
      Recovers loaded mission participant execution sticky.books result ctx' w.books errors ∧
      result.cause.bind (·.leftClaimed) = some 500 := by
  have hhands (w : World) (hfeeds : w.faults.feedErrors = []) (hflags : w.faults.flagErrors = []) :
      w.faults.Hands (·.leftClaimed = none) := ⟨fun _ _ => rfl, by simp [hfeeds], by simp [hflags]⟩
  have hloaded : loaded.mission = some mission := rfl
  have hclean : ∀ k < 2, ((step.served World.server).reports (loaded, faltering) k).cause.map (·.leftClaimed) =
      some none := by decide +kernel
  have hfailed (k : ℕ) (hk : k < 2) : ∃ e, ((step.served World.server).reports (loaded, faltering) k).cause = some e ∧
      e.leftClaimed = none := Option.map_eq_some_iff.1 (hclean k hk)
  have hstuck : (((step.execute.run loaded).serve World.server).run sticky).1.1.cause.bind (·.leftClaimed) =
      some 500 := by decide +kernel
  obtain ⟨-, hretried⟩ := execute_recovers (World.server_failsCleanly _) (hhands faltering rfl rfl) hloaded rfl rfl
    (by decide +kernel) (by decide +kernel)
  obtain ⟨hctx, hbooks⟩ := hretried 2 steady hfailed (by decide +kernel) (hhands steady rfl rfl) rfl
    (by decide +kernel)
  obtain ⟨⟨result, ctx', w, errors, hrun, -, hrecovers⟩, -⟩ := execute_recovers (World.server_failsCleanly _)
    (hhands sticky rfl rfl) hloaded rfl rfl (by decide +kernel) (by decide +kernel)
  rw [hrun] at hstuck
  exact ⟨hfailed, hctx, hbooks, result, ctx', w, errors, hrun, hrecovers, hstuck⟩

end Missions
