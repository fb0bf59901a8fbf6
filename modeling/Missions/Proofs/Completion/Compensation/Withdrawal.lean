import Mathlib.Logic.Function.Iterate
import Missions.Proofs.Completion.Publication

/-! The entry of a publication is deleted and its number forgotten before the shared flag is cleared, so a
compensation that fails in between leaves nothing for the next one to go by: that one succeeds, and the flag stays
set. -/

namespace Missions

/-! ### Compensations in a row -/

namespace Step

variable {σ ε π : Type} (step : Step σ Id ε π)

/-- The state after so many compensations in a row. -/
def stateAfterUndoing (s : σ) (calls : ℕ) : σ := (fun s => (step.compensate.run s).2)^[calls] s

/-- What the compensations in a row report, one after another. -/
def undoReports (s : σ) (k : ℕ) : StepResult ε π := (step.compensate.run (step.stateAfterUndoing s k)).1

theorem stateAfterUndoing_succ (s : σ) (calls : ℕ) :
    step.stateAfterUndoing s (calls + 1) = (step.compensate.run (step.stateAfterUndoing s calls)).2 :=
  Function.iterate_succ_apply' _ calls s

end Step

theorem Books.feeds_setSharedFlag (books : Books) (target : Target) (shared : Bool) :
    (books.setSharedFlag target shared).feeds = books.feeds := by
  cases target <;> rfl

namespace Sharing

open Procedure

variable {may : CompletionError → Prop} {ctx : Context} {books : Books} {target : Target} {feed : Int}

/-- The entry is there, its record is marked as shared, and the context knows of both. -/
structure Standing (target : Target) (feed : Int) (ctx : Context) (books : Books) : Prop where
  entry : ∃ f ∈ books.feeds, f.id = feed
  flag : books.sharedFlag target = some true
  feed : ctx.feed = some feed
  target : ctx.target = some target

structure Forgotten (target : Target) (feed : Int) (flag : Bool) (ctx : Context) (books : Books) : Prop where
  entry : ∀ f ∈ books.feeds, f.id ≠ feed
  flag : books.sharedFlag target = some flag
  feed : ctx.feed = none

/-! ### One call -/

theorem meets_publish_standing : publish.Meets (Books.protocol may Context) (fun r ctx' books' =>
    ∀ message feed, r = .ok ⟨message, some (.shared feed)⟩ → ∃ target, Standing target feed ctx' books') ctx books := by
  rw [publish, meets_bind, meets_get]
  dsimp only
  split
  · rintro message feed ⟨⟩
  refine .require_bind (by rintro message feed ⟨⟩) fun target htarget => ?_
  simp only [draft, bind_assoc, meets_bind, meets_get]
  cases hmission : ctx.missionId with
  | none => rintro message feed ⟨⟩
  | some mission =>
    simp only [meets_require_some, meets_pure, meets_ask_books, ne_eq, reduceCtorEq, not_false_eq_true, implies_true,
      Books.perform]
    refine ⟨(meets_query_books (by simp)).2 ⟨?_, fun e he => ?_⟩, by rintro e he message feed ⟨⟩⟩
    · rintro message feed ⟨⟩
      refine ⟨target, ?_, Books.sharedFlag_setSharedFlag_self _ _, rfl, htarget⟩
      rw [Books.perform, Books.feeds_setSharedFlag]
      exact ⟨_, List.mem_append_right _ (List.mem_singleton_self _), rfl⟩
    · simp only [meets_bind, meets_query_books, meets_throw, ne_eq, reduceCtorEq, not_false_eq_true, implies_true,
        IsEmpty.forall_iff, and_self]

theorem meets_unpublish_standing (h : Standing target feed ctx books) :
    unpublish.Meets (Books.protocol may Context) (Either (Forgotten target feed false)
      fun _ ctx' books' => Standing target feed ctx' books' ∨ Forgotten target feed true ctx' books') ctx books := by
  have hgone : ∀ f ∈ (books.unpublish feed).feeds, f.id ≠ feed := fun f hf => bne_iff_ne.1 (List.mem_filter.1 hf).2
  simp only [unpublish, meets_bind, meets_get, h.feed, h.target, meets_require_some, meets_ask_books, meets_modify,
    meets_pure, ne_eq, reduceCtorEq, not_false_eq_true, implies_true, Books.perform, Either]
  refine ⟨⟨⟨?_, Books.sharedFlag_setSharedFlag_self _ _, rfl⟩, fun e he => .inr ⟨hgone, h.flag, rfl⟩⟩,
    fun e he => .inl h⟩
  rwa [Books.feeds_setSharedFlag]

theorem meets_unpublish_forgotten (h : ctx.feed = none) :
    unpublish.Meets (Books.protocol may Context) (Either (fun ctx' books' => ctx' = ctx ∧ books' = books)
      fun _ _ _ => False) ctx books := by
  rw [unpublish, meets_bind, meets_get]
  simp only [h]
  exact ⟨rfl, rfl⟩

/-! ### Calls in a row -/

section

variable {S : Type} {server : Server S} {view : S → Books} {good : S → Prop}

theorem undo_ends (hserver : server.FailsCleanly may view good) {s : Context × S} (hs : good s.2)
    {undone : Context → Books → Prop} {failed : CompletionError → Context → Books → Prop}
    (h : unpublish.Meets (Books.protocol may Context) (Either undone failed) s.1 (view s.2)) :
    ∃ result s', (step.served server).compensate.run s = pure (result, s') ∧ good s'.2 ∧
      ((result.isSuccess = true ∧ undone s'.1 (view s'.2)) ∨
        (result.isSuccess = false ∧ ∃ e, failed e s'.1 (view s'.2))) := by
  obtain ⟨result, ctx', w', hrun, hresult, hgood⟩ := h.settle.served (hserver.governs Context) hs
  refine ⟨result, (ctx', w'), hrun, hgood, ?_⟩
  cases hok : result.isSuccess with
  | true => exact .inl ⟨rfl, hresult.of_isSuccess hok⟩
  | false =>
    obtain ⟨e, -, -, hfailed⟩ := hresult.of_failed hok
    exact .inr ⟨rfl, e, hfailed⟩

theorem undo_standing (hserver : server.FailsCleanly may view good) {s : Context × S} (hs : good s.2)
    (h : Standing target feed s.1 (view s.2)) :
    ∃ result s', (step.served server).compensate.run s = pure (result, s') ∧ good s'.2 ∧
      ((result.isSuccess = true ∧ Forgotten target feed false s'.1 (view s'.2)) ∨
        (result.isSuccess = false ∧
          (Standing target feed s'.1 (view s'.2) ∨ Forgotten target feed true s'.1 (view s'.2)))) := by
  obtain ⟨result, s', hrun, hgood, hundone | ⟨hfails, -, hfailed⟩⟩ :=
    undo_ends hserver hs (meets_unpublish_standing h)
  · exact ⟨result, s', hrun, hgood, .inl hundone⟩
  · exact ⟨result, s', hrun, hgood, .inr ⟨hfails, hfailed⟩⟩

theorem undo_forgotten (hserver : server.FailsCleanly may view good) {s : Context × S} (hs : good s.2)
    (h : s.1.feed = none) :
    ∃ result s', (step.served server).compensate.run s = pure (result, s') ∧ good s'.2 ∧ result.isSuccess = true ∧
      s'.1 = s.1 ∧ view s'.2 = view s.2 := by
  obtain ⟨result, s', hrun, hgood, hundone | ⟨-, e, hfailed⟩⟩ := undo_ends hserver hs (meets_unpublish_forgotten h)
  · exact ⟨result, s', hrun, hgood, hundone⟩
  · exact hfailed.elim

variable (server) in
/-- None of the first calls failed after it had forgotten the entry. -/
def NeverSlipped (s : Context × S) (feed : Int) (calls : ℕ) : Prop :=
  ∀ k < calls, ((step.served server).undoReports s k).isSuccess = false →
    ((step.served server).stateAfterUndoing s (k + 1)).1.feed = some feed

theorem neverSlipped_succ {s : Context × S} {calls : ℕ} :
    NeverSlipped server s feed (calls + 1) ↔ NeverSlipped server s feed calls ∧
      (((step.served server).undoReports s calls).isSuccess = false →
        ((step.served server).stateAfterUndoing s (calls + 1)).1.feed = some feed) :=
  Nat.forall_lt_succ_right

/-- What calls in a row have come to: the publication stands and every call failed, or its entry is forgotten, and the
flag is cleared if no call slipped. -/
def Reached (server : Server S) (view : S → Books) (target : Target) (feed : Int) (s : Context × S) (calls : ℕ) :
    Prop :=
  let reached := (step.served server).stateAfterUndoing s calls
  (Standing target feed reached.1 (view reached.2) ∧
      (∀ k < calls, ((step.served server).undoReports s k).isSuccess = false) ∧ NeverSlipped server s feed calls) ∨
    ∃ flag, Forgotten target feed flag reached.1 (view reached.2) ∧ (flag = false ↔ NeverSlipped server s feed calls)

theorem reached_all (hserver : server.FailsCleanly may view good) {s : Context × S} (hs : good s.2)
    (h : Standing target feed s.1 (view s.2)) (calls : ℕ) :
    good ((step.served server).stateAfterUndoing s calls).2 ∧ Reached server view target feed s calls := by
  induction calls with
  | zero => exact ⟨hs, .inl ⟨h, nofun, nofun⟩⟩
  | succ calls ih =>
    obtain ⟨hgood, hreached⟩ := ih
    have hreport : (step.served server).undoReports s calls =
      ((step.served server).compensate.run ((step.served server).stateAfterUndoing s calls)).1 := rfl
    rw [Reached, neverSlipped_succ, Nat.forall_lt_succ_right, hreport, Step.stateAfterUndoing_succ]
    rcases hreached with ⟨hstanding, hfailed, hnever⟩ | ⟨flag, hforgotten, hflag⟩
    · obtain ⟨result, s', hrun, hgood', ⟨hok, hforgotten⟩ | ⟨hfails, hstanding' | hforgotten⟩⟩ :=
        undo_standing hserver hgood hstanding
      all_goals
        rw [hrun]
        refine ⟨hgood', ?_⟩
      · exact .inr ⟨false, hforgotten, by simp [pure, hok, hnever]⟩
      · exact .inl ⟨hstanding', ⟨hfailed, hfails⟩, hnever, fun _ => hstanding'.feed⟩
      · exact .inr ⟨true, hforgotten, by simp [pure, hfails, hforgotten.feed]⟩
    · obtain ⟨result, s', hrun, hgood', hok, hctx, hbooks⟩ := undo_forgotten hserver hgood hforgotten.feed
      rw [hrun]
      refine ⟨hgood', .inr ⟨flag, ?_, ?_⟩⟩
      · simp only [pure, hctx, hbooks]
        exact hforgotten
      · simp [pure, hok, hflag]

/-- Whatever fails, a compensation that succeeds has found the entry of the publication gone or deleted it. The record's
flag is cleared exactly if none of the calls before slipped; otherwise it is still set. -/
theorem unshared_iff_neverSlipped (hserver : server.FailsCleanly may view good) {w : S} (hw : good w)
    {ctx₀ ctx : Context} {books₀ : Books} {message : String} {feed : Int}
    (hpublish : (step.execute.run ctx₀).Comes may books₀ (.success message (some (.shared feed)), ctx) (view w)) :
    ∃ target, ctx.target = some target ∧ (∃ f ∈ (view w).feeds, f.id = feed) ∧
      (view w).sharedFlag target = some true ∧
      ∀ k, ((step.served server).undoReports (ctx, w) k).isSuccess = true →
        (∀ f ∈ (view ((step.served server).stateAfterUndoing (ctx, w) (k + 1)).2).feeds, f.id ≠ feed) ∧
        ∃ flag, (view ((step.served server).stateAfterUndoing (ctx, w) (k + 1)).2).sharedFlag target = some flag ∧
          (flag = false ↔ NeverSlipped server (ctx, w) feed k) := by
  have hexecute : (step.execute.run ctx₀).Obeys (Books.protocol may Context) (fun r books => ∀ message feed,
      r.1 = .success message (some (.shared feed)) → ∃ target, Standing target feed r.2 books) books₀ := by
    refine obeys_settle.2 (meets_publish_standing.mono fun r ctx' books' hr => ?_)
    cases r with
    | ok success =>
      obtain ⟨_, _⟩ := success
      rintro message feed ⟨⟩
      exact hr _ _ rfl
    | error e => simp [neverRejects]
  obtain ⟨target, hstanding⟩ := hexecute.comes hpublish message feed rfl
  refine ⟨target, hstanding.target, hstanding.entry, hstanding.flag, fun k hok => ?_⟩
  obtain ⟨-, ⟨-, hfailed, -⟩ | ⟨flag, hforgotten, hflag⟩⟩ := reached_all (s := (ctx, w)) hserver hw hstanding (k + 1)
  · exact absurd (hok.symm.trans (hfailed k (Nat.lt_succ_self k))) (by decide)
  · refine ⟨hforgotten.entry, flag, hforgotten.flag, hflag.trans (neverSlipped_succ.trans (and_iff_left ?_))⟩
    exact fun hfails => absurd (hok.symm.trans hfails) (by decide)

end

end Sharing

namespace Fixture

def shared : (CompletionResult × Context) × World :=
  ((Sharing.step.execute.run loaded).serve World.server).run (plain.foldl World.disturb {})

/-- The completion to be withdrawn, when some updates of flags are going to fail. -/
def withdrawing (failures : Nat) : Context × World := (shared.1.2, shared.2.disturb (.failFlagUpdates failures))

end Fixture

open Fixture in
theorem Sharing.unshared_iff_neverSlipped_withdrawing :
    ((Sharing.step.served World.server).undoReports (withdrawing 1) 1).isSuccess = true ∧
      (∀ f ∈ ((Sharing.step.served World.server).stateAfterUndoing (withdrawing 1) 2).2.books.feeds, f.id ≠ 42) ∧
      ¬ Sharing.NeverSlipped World.server (withdrawing 1) 42 1 := by
  have hok : ((Sharing.step.served World.server).undoReports (withdrawing 1) 1).isSuccess = true := by decide +kernel
  have hpublish := (World.server_failsCleanly fun _ => True).comes (Sharing.step.execute.run loaded)
    (s := plain.foldl World.disturb {}) (Faults.hands_any _)
  obtain ⟨target, htarget, -, -, hend⟩ := Sharing.unshared_iff_neverSlipped (World.server_failsCleanly fun _ => True)
    (w := (withdrawing 1).2) (Faults.hands_any _) hpublish
  obtain ⟨hentry, flag, hflag, hslipped⟩ := hend 1 hok
  obtain rfl : target = .execution 500 := (Option.some.inj htarget).symm
  have hset : ((Sharing.step.served World.server).stateAfterUndoing (withdrawing 1) 2).2.books.sharedFlag
    (.execution 500) = some true := by decide +kernel
  obtain rfl : flag = true := Option.some.inj (hflag.symm.trans hset)
  exact ⟨hok, hentry, fun hnever => absurd (hslipped.2 hnever) (by decide)⟩

open Fixture in
/-- The second compensation succeeds, and the record is still marked as shared. -/
theorem Sharing.success_leaves_flag :
    shared.1.1 = .success "mission shared to feed" (some (.shared 42)) ∧
      ((Sharing.step.served World.server).undoReports (withdrawing 1) 0).isSuccess = false ∧
      ((Sharing.step.served World.server).undoReports (withdrawing 1) 1).isSuccess = true ∧
      ((Sharing.step.served World.server).stateAfterUndoing (withdrawing 1) 2).2.books.sharedFlag (.execution 500) =
        some true :=
  ⟨rfl, by decide +kernel⟩

end Missions
