import Missions.Completion.Sharing
import Missions.Proofs.Completion.Stages
import Missions.Proofs.Completion.Undisturbed.Calls
import Missions.Proofs.Saga.Serving
import Missions.Rehearsal.Fixture

/-! An attempt to share that fails has deleted what it had published, and of all the attempts only the numbers are
left that they used up. -/

namespace Missions

/-! ### Calls that never fail -/

/-- The protocol of a caller that is alone with the books, where calls of one kind never fail. -/
def Books.sparing (may : CompletionError → Prop) (spared : Call → Prop) (σ : Type) : Protocol σ Books where
  allowed _ _ _ := True
  answered _ books c answer books' := books.Answers may c answer books' ∧ (spared c → answer.isOk = true)

theorem Program.Obeys.sparing {σ α : Type} {may : CompletionError → Prop} {p : Program σ α} {Q : α → Books → Prop}
    {books : Books} (h : p.Obeys (Books.protocol may σ) Q books) (spared : Call → Prop) :
    p.Obeys (Books.sparing may spared σ) Q books := by
  refine h.stricter ?_ ?_
  · exact fun _ _ _ _ => trivial
  · exact fun _ _ _ _ _ hanswered => hanswered.1

theorem Server.FailsCleanly.governs_sparing {S : Type} {server : Server S} {may : CompletionError → Prop}
    {view : S → Books} {good : S → Prop} (h : server.FailsCleanly may view good) {spared : Call → Prop}
    (hspared : ∀ c s, good s → spared c → ((server c).run s).1.isOk = true) (σ : Type) :
    (Books.sparing may spared σ).Governs server view good :=
  fun _ c s hs => ⟨⟨(h c s hs).1, hspared c s hs⟩, (h c s hs).2⟩

namespace Procedure

variable {may : CompletionError → Prop} {spared : Call → Prop} {c : Call} {ctx : Context} {books : Books}

theorem forall_sparing (hc : ∀ id, c ≠ .completeExecution id) {R : Except CompletionError c.Answer → Books → Prop} :
    (∀ answer books', (books.Answers may c answer books' ∧ (spared c → answer.isOk = true)) → R answer books') ↔
      R (.ok (books.perform c).1) (books.perform c).2 ∧ (¬ spared c → ∀ e, may e → R (.error e) books) := by
  constructor
  · exact fun h => ⟨h _ _ ⟨.performed c, fun _ => rfl⟩, fun hc e he => h _ _ ⟨.failed c he, fun hs => absurd hs hc⟩⟩
  · rintro ⟨hperformed, hfailed⟩ answer books' ⟨hanswers, hok⟩
    cases hanswers with
    | performed => exact hperformed
    | failed _ he => exact hfailed (fun hs => Bool.false_ne_true (hok hs)) _ he
    | claimLost id => exact absurd rfl (hc id)

theorem meets_ask_sparing (hc : ∀ id, c ≠ .completeExecution id)
    {Q : Except CompletionError c.Answer → Context → Books → Prop} :
    Meets (α := no_index _) (Books.sparing may spared Context) (ask c) Q ctx books ↔
      Q (.ok (books.perform c).1) ctx (books.perform c).2 ∧ (¬ spared c → ∀ e, may e → Q (.error e) ctx books) := by
  rw [meets_ask]
  exact (and_iff_right trivial).trans (forall_sparing (R := fun answer => Q answer ctx) hc)

theorem meets_query_sparing (hc : ∀ id, c ≠ .completeExecution id)
    {Q : Except CompletionError (Except CompletionError c.Answer) → Context → Books → Prop} :
    Meets (α := no_index _) (Books.sparing may spared Context) (query c) Q ctx books ↔
      Q (.ok (.ok (books.perform c).1)) ctx (books.perform c).2 ∧
        (¬ spared c → ∀ e, may e → Q (.ok (.error e)) ctx books) := by
  rw [meets_query]
  exact (and_iff_right trivial).trans (forall_sparing (R := fun answer => Q (.ok answer) ctx) hc)

end Procedure

/-! ### Entries -/

namespace Books

variable {books : Books}

theorem sharedFlag_setSharedFlag_self (target : Target) (shared : Bool) :
    (books.setSharedFlag target shared).sharedFlag target = some shared := by
  cases target <;> exact Table.get?_insert_self _ _ _

theorem sharedFlag_setSharedFlag_of_ne {target target' : Target} (h : target' ≠ target) (shared : Bool) :
    (books.setSharedFlag target shared).sharedFlag target' = books.sharedFlag target' := by
  cases target <;> cases target' <;>
    first | rfl | exact Table.get?_insert_of_ne _ (fun hid => h (congrArg _ hid)) _

theorem unpublish_publish (h : ∀ f ∈ books.feeds, f.id < books.nextFeed) (entry : FeedDraft) :
    (books.publish entry).2.unpublish books.nextFeed = { books with nextFeed := books.nextFeed + 1 } := by
  have hold : books.feeds.filter (·.id != books.nextFeed) = books.feeds :=
    List.filter_eq_self.2 fun f hf => bne_iff_ne.2 (Int.ne_of_lt (h f hf))
  simp [publish, unpublish, hold]

end Books

namespace Sharing

open Procedure

variable {may : CompletionError → Prop} {ctx : Context} {books : Books} {m : Mission} {target : Target}

def Deletes (c : Call) : Prop := ∃ feed, c = .deleteFeed feed

theorem meets_publish_once (hshare : ctx.request.share = true) (hmission : ctx.mission = some m)
    (htarget : ctx.target = some target) (hfeeds : ∀ f ∈ books.feeds, f.id < books.nextFeed) :
    publish.Meets (Books.sparing may Deletes Context) (Either
      (fun ctx' books' => ctx' = ctx.withFeed (some books.nextFeed) ∧
        books' = ({ books with
          feeds := books.feeds ++ [⟨books.nextFeed, ctx.request.user, m.id⟩]
          nextFeed := books.nextFeed + 1 } : Books).setSharedFlag target true)
      fun _ ctx' books' => ctx' = ctx ∧ (books' = books ∨ books' = { books with nextFeed := books.nextFeed + 1 })) ctx
      books := by
  have hid : ctx.missionId = some m.id := by rw [Context.missionId, hmission, Option.map_some]
  simp only [publish, meets_bind, meets_get, hshare, Bool.not_true, Bool.false_eq_true, if_false, htarget,
    meets_require_some, draft, hid, meets_pure, meets_ask_sparing, meets_query_sparing, ne_eq, reduceCtorEq,
    not_false_eq_true, implies_true, meets_throw, meets_modify, Books.perform, Either]
  exact ⟨⟨⟨rfl, rfl⟩, fun _ _ _ => ⟨⟨trivial, .inr (Books.unpublish_publish hfeeds _)⟩,
    fun hkept => absurd ⟨_, rfl⟩ hkept⟩⟩, fun _ _ _ => ⟨trivial, .inl trivial⟩⟩

/-- What attempts to share come to, by whether the last of them succeeded. -/
inductive Published (ctx : Context) (m : Mission) (target : Target) (books : Books) : Bool → Context → Books → Prop
  | shared {n : Int} (hn : books.nextFeed ≤ n) :
      Published ctx m target books true (ctx.withFeed (some n))
        (({ books with feeds := books.feeds ++ [⟨n, ctx.request.user, m.id⟩], nextFeed := n + 1 } :
          Books).setSharedFlag target true)
  | withdrawn {n : Int} (hn : books.nextFeed ≤ n) :
      Published ctx m target books false ctx { books with nextFeed := n }

namespace Published

variable {ctx' : Context} {books' : Books}

theorem of_success (h : Published ctx m target books true ctx' books')
    (hfeeds : ∀ f ∈ books.feeds, f.id < books.nextFeed) :
    (∃ feed : Feed, books'.feeds = books.feeds ++ [feed] ∧ (∀ f ∈ books.feeds, f.id ≠ feed.id) ∧
      feed.user = ctx.request.user ∧ feed.mission = m.id ∧ ctx'.feed = some feed.id) ∧
      books'.sharedFlag target = some true ∧
      ∀ other ≠ target, books'.sharedFlag other = books.sharedFlag other := by
  cases h with | @shared n hn =>
  refine ⟨⟨⟨n, ctx.request.user, m.id⟩, ?_, fun f hf => ?_, rfl, rfl, rfl⟩,
    Books.sharedFlag_setSharedFlag_self target true, fun other hother => ?_⟩
  · cases target <;> rfl
  · exact Int.ne_of_lt (Int.lt_of_lt_of_le (hfeeds f hf) hn)
  · rw [Books.sharedFlag_setSharedFlag_of_ne hother]
    cases other <;> rfl

theorem of_failure (h : Published ctx m target books false ctx' books') :
    books'.feeds = books.feeds ∧ (∀ other, books'.sharedFlag other = books.sharedFlag other) ∧ ctx' = ctx := by
  cases h with | withdrawn hn =>
  exact ⟨rfl, fun other => by cases other <;> rfl, rfl⟩

end Published

theorem obeys_execute_again (hshare : ctx.request.share = true) (hmission : ctx.mission = some m)
    (htarget : ctx.target = some target) (hfeeds : ∀ f ∈ books.feeds, f.id < books.nextFeed) {ctx' : Context}
    {books' : Books} (h : Published ctx m target books false ctx' books') :
    (step.execute.run ctx').Obeys (Books.sparing may Deletes Context)
      (fun r g => Published ctx m target books r.1.isSuccess r.2 g) books' := by
  cases h with | @withdrawn n hn =>
  let used : Books := { books with nextFeed := n }
  have hused : ∀ f ∈ used.feeds, f.id < used.nextFeed := fun f hf => Int.lt_of_lt_of_le (hfeeds f hf) hn
  refine (meets_publish_once hshare hmission htarget hused).settle.mono fun r g hr => ?_
  obtain ⟨result, ctx'⟩ := r
  cases hok : result.isSuccess with
  | true =>
    obtain ⟨rfl, rfl⟩ := hr.of_isSuccess hok
    exact .shared hn
  | false =>
    obtain ⟨-, -, -, rfl, rfl | rfl⟩ := hr.of_failed hok
    · exact .withdrawn hn
    · exact .withdrawn (Int.le_trans hn (Int.le_add_one (Int.le_refl n)))

theorem obeys_attempts (hshare : ctx.request.share = true) (hmission : ctx.mission = some m)
    (htarget : ctx.target = some target) (hfeeds : ∀ f ∈ books.feeds, f.id < books.nextFeed) (retries : Nat) :
    ((Run.attempt step.execute retries 0).run.run ctx).Obeys (Books.sparing may Deletes Context)
      (Run.Attempted (fun tries ctx' books' => Published ctx m target books tries.result.isSuccess ctx' books')
        retries) books := by
  refine Run.attempted_all (L := (Books.sparing may Deletes Context).logic)
    (J := fun _ ctx' books' => Published ctx m target books false ctx' books') (fun made ctx' books' h => ?_) retries
    (.withdrawn (Int.le_refl _))
  refine (obeys_execute_again hshare hmission htarget hfeeds h).mono fun r g hr => ⟨fun hretry => ?_, hr⟩
  rwa [StepResult.isSuccess_of_isRetryable hretry] at hr

theorem isOk_of_deletes {S : Type} {server : Server S} {good : S → Prop}
    (hdelete : ∀ feed s, good s → ((server (.deleteFeed feed)).run s).1 = .ok ()) (c : Call) (s : S) (hs : good s)
    (hc : Deletes c) : ((server c).run s).1.isOk = true := by
  obtain ⟨feed, rfl⟩ := hc
  rw [hdelete feed s hs]
  rfl

/-- All attempts together publish one entry and mark the closed record as shared, or they leave entries, flags and the
context as they were. -/
theorem attempts_all_or_nothing {S : Type} {server : Server S} {view : S → Books} {good : S → Prop}
    (hserver : server.FailsCleanly may view good)
    (hdelete : ∀ feed s, good s → ((server (.deleteFeed feed)).run s).1 = .ok ()) {s : S} (hs : good s)
    (hfeeds : ∀ f ∈ (view s).feeds, f.id < (view s).nextFeed) (hshare : ctx.request.share = true)
    (hmission : ctx.mission = some m) (htarget : ctx.target = some target) (hfresh : ctx.feed = none)
    (policy : RetryPolicy) (hretries : policy.maxRetries.toNat < attemptCounterMax) :
    ∃ tries ctx' s', (((Run.attempt step.execute policy.maxRetries.toNat 0).run.run ctx).serve server).run s =
        ((.ok tries, ctx'), s') ∧
      ((tries.result.isSuccess = true ∧
          (∃ feed : Feed, (view s').feeds = (view s).feeds ++ [feed] ∧ (∀ f ∈ (view s).feeds, f.id ≠ feed.id) ∧
            feed.user = ctx.request.user ∧ feed.mission = m.id ∧ ctx'.feed = some feed.id) ∧
          (view s').sharedFlag target = some true ∧
          ∀ other ≠ target, (view s').sharedFlag other = (view s).sharedFlag other) ∨
        (tries.result.isSuccess = false ∧ (view s').feeds = (view s).feeds ∧
          (∀ other, (view s').sharedFlag other = (view s).sharedFlag other) ∧ ctx' = ctx ∧ ctx'.feed = none)) := by
  have hattempts := (obeys_attempts hshare hmission htarget hfeeds policy.maxRetries.toNat).serve
    (hserver.governs_sparing (isOk_of_deletes hdelete) Context) hs
  generalize (((Run.attempt step.execute policy.maxRetries.toNat 0).run.run ctx).serve server).run s = run
    at hattempts ⊢
  obtain ⟨⟨interrupted | tries, ctx'⟩, s'⟩ := run
  · exact absurd hretries (Nat.not_lt.2 hattempts)
  refine ⟨tries, ctx', s', rfl, ?_⟩
  have hpublished : Published ctx m target (view s) tries.result.isSuccess ctx' (view s') := hattempts
  cases hok : tries.result.isSuccess with
  | true =>
    rw [hok] at hpublished
    exact .inl ⟨rfl, hpublished.of_success hfeeds⟩
  | false =>
    rw [hok] at hpublished
    obtain ⟨hentries, hflags, rfl⟩ := hpublished.of_failure
    exact .inr ⟨rfl, hentries, hflags, rfl, hfresh⟩

end Sharing

namespace Fixture

/-- A world with an entry of somebody else's, where publishing fails once and marking twice. -/
def reluctant : World where
  books := { (plain.foldl World.disturb {}).books with feeds := [⟨7, "user-2", 100⟩] }
  faults := { feedCreations := 1, flagUpdates := 2 }

def sharing (retries : UInt32) : (Except Interruption (Tries CompletionError Receipt) × Context) × World :=
  (((Run.attempt Sharing.step.execute (RetryPolicy.fixed retries 0).maxRetries.toNat 0).run.run loaded).serve
    World.server).run reluctant

def tried (r : (Except Interruption (Tries CompletionError Receipt) × Context) × World) : Option (Nat × Bool) :=
  r.1.1.toOption.map fun tries => (tries.attempts, tries.result.isSuccess)

end Fixture

open Fixture in
theorem Sharing.attempts_all_or_nothing_reluctant :
    (∀ feed ∈ reluctant.books.feeds, feed.id < reluctant.books.nextFeed) ∧ loaded.request.share = true ∧
      loaded.target = some (.execution 500) ∧ loaded.feed = none ∧
    (tried (sharing 3) = some (4, true) ∧
      (∃ feed : Feed, (sharing 3).2.books.feeds = reluctant.books.feeds ++ [feed] ∧
        (sharing 3).1.2.feed = some feed.id ∧ feed.id = 44) ∧
      (sharing 3).2.books.sharedFlag (.execution 500) = some true) ∧
    (tried (sharing 2) = some (3, false) ∧ (sharing 2).2.books.feeds = reluctant.books.feeds ∧
      (sharing 2).2.books.sharedFlag (.execution 500) = reluctant.books.sharedFlag (.execution 500) ∧
      (sharing 2).1.2.feed = none) := by
  have hfeeds : ∀ feed ∈ reluctant.books.feeds, feed.id < reluctant.books.nextFeed := by decide +kernel
  have hhands : reluctant.faults.Hands fun _ => True :=
    ⟨fun _ _ => trivial, fun _ _ => trivial, fun _ _ => trivial⟩
  have htarget : loaded.target = some (.execution 500) := rfl
  have hshared : tried (sharing 3) = some (4, true) := by decide +kernel
  have hwithdrawn : tried (sharing 2) = some (3, false) := by decide +kernel
  have hnumber : (sharing 3).1.2.feed = some 44 := by decide +kernel
  have hall (retries : UInt32) (hretries : retries.toNat < attemptCounterMax) :=
    Sharing.attempts_all_or_nothing (World.server_failsCleanly _) (fun _ _ _ => rfl) hhands hfeeds rfl rfl htarget rfl
      (.fixed retries 0) hretries
  refine ⟨hfeeds, rfl, htarget, rfl, ⟨hshared, ?_⟩, hwithdrawn, ?_⟩
  · obtain ⟨tries, ctx', w, hrun, hend⟩ := hall 3 (by decide)
    rw [show sharing 3 = ((.ok tries, ctx'), w) from hrun] at hshared hnumber ⊢
    have hok : tries.result.isSuccess = true := congrArg Prod.snd (Option.some.inj hshared)
    obtain ⟨-, ⟨feed, hentries, -, -, -, hfeed⟩, hflag, -⟩ | ⟨hfailed, -⟩ := hend
    · exact ⟨⟨feed, hentries, hfeed, Option.some.inj (hfeed.symm.trans hnumber)⟩, hflag⟩
    · exact absurd (hok.symm.trans hfailed) (by decide)
  · obtain ⟨tries, ctx', w, hrun, hend⟩ := hall 2 (by decide)
    rw [show sharing 2 = ((.ok tries, ctx'), w) from hrun] at hwithdrawn ⊢
    have hfailed : tries.result.isSuccess = false := congrArg Prod.snd (Option.some.inj hwithdrawn)
    obtain ⟨hok, -⟩ | ⟨-, hentries, hflags, -, hfeed⟩ := hend
    · exact absurd (hok.symm.trans hfailed) (by decide)
    · exact ⟨hentries, hflags _, hfeed⟩

end Missions
