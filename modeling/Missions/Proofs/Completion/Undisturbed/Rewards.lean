import Missions.Completion.GuildReward
import Missions.Completion.Sharing
import Missions.Completion.UserReward
import Missions.Proofs.Completion.Facets
import Missions.Proofs.Completion.Stages
import Missions.Proofs.Completion.Undisturbed.Calls

namespace Missions

namespace Books

variable (books : Books) (user : String) (guild total : Int)

@[simp] theorem userTotal_setUserTotal_self : (books.setUserTotal user total).userTotal user = total := by
  rw [userTotal, setUserTotal, Table.get?_insert_self, Option.getD_some]

theorem userTotal_setUserTotal_of_ne {user' : String} (h : user' ≠ user) :
    (books.setUserTotal user total).userTotal user' = books.userTotal user' := by
  rw [userTotal, setUserTotal, Table.get?_insert_of_ne _ h, userTotal]

@[simp] theorem guildTotal_setGuildTotal_self : (books.setGuildTotal guild total).guildTotal guild = total := by
  rw [guildTotal, setGuildTotal, Table.get?_insert_self, Option.getD_some]

theorem guildTotal_setGuildTotal_of_ne {guild' : Int} (h : guild' ≠ guild) :
    (books.setGuildTotal guild total).guildTotal guild' = books.guildTotal guild' := by
  rw [guildTotal, setGuildTotal, Table.get?_insert_of_ne _ h, guildTotal]

/-- The books with an amount granted to a user, if there is anything to grant. -/
def rewarded (amount : Int) : Books :=
  if amount ≤ 0 then books else books.setUserTotal user (books.userTotal user + amount)

theorem rewarded_eq (amount : Int) :
    books.rewarded user amount = { books with userTotals := (books.rewarded user amount).userTotals } := by
  rw [rewarded]
  split <;> rfl

/-- The books with an amount granted to a guild, if there is anything to grant. -/
def guildRewarded (amount : Int) : Books :=
  if amount ≤ 0 then books else books.setGuildTotal guild (books.guildTotal guild + amount)

/-- Books that differ in published entries and shared flags only. -/
structure SharingAside (books books' : Books) : Prop where
  userTotals : books'.userTotals = books.userTotals
  guildTotals : books'.guildTotals = books.guildTotals
  missions : books'.missions = books.missions
  participants : books'.participants = books.participants
  executions : books'.executions = books.executions
  instances : books'.instances = books.instances

theorem SharingAside.refl : books.SharingAside books := by constructor <;> rfl

theorem SharingAside.trans {books books' books'' : Books} (h : books.SharingAside books')
    (h' : books'.SharingAside books'') : books.SharingAside books'' where
  userTotals := h'.userTotals.trans h.userTotals
  guildTotals := h'.guildTotals.trans h.guildTotals
  missions := h'.missions.trans h.missions
  participants := h'.participants.trans h.participants
  executions := h'.executions.trans h.executions
  instances := h'.instances.trans h.instances

theorem SharingAside.setSharedFlag (target : Target) (shared : Bool) :
    books.SharingAside (books.setSharedFlag target shared) := by
  cases target <;> constructor <;> rfl

end Books

open Procedure

variable {may : CompletionError → Prop} {ctx : Context} {books : Books}

/-- The snapshots after an amount was granted to a user with a total. -/
def Context.RewardMarks.Tell (marks : RewardMarks) (total amount : Int) : Prop :=
  if amount ≤ 0 then marks.after = none else marks = ⟨some total, some (total + amount), some amount⟩

namespace UserReward

/-- The context of a grant that is under way: what the standing was is kept. -/
def begun (ctx : Context) (before : Experience) : Context :=
  ((ctx.keep Snapshot.userTotalBefore before.total).keep Snapshot.userLevelBefore before.level).withLevelBefore
    before.level

theorem reward_begun (ctx : Context) (before : Experience) :
    (begun ctx before).reward = { ctx.reward with before := some before.total } := by
  simp (disch := decide) only [begun, Context.reward, Context.kept, Context.keep, Context.withLevelBefore,
    Snapshots.get?_insert_of_ne, Snapshots.get?_insert_self]

theorem meets_grant (hfresh : ctx.reward.after = none) :
    grant.Meets (Books.protocol may Context) (Either
      (fun ctx' books' => ctx'.brief = ctx.brief ∧ ctx'.records = ctx.records ∧
        ctx'.reward.Tell (books.userTotal ctx.request.user) ctx.userEarned ∧
        books' = books.rewarded ctx.request.user ctx.userEarned)
      fun e ctx' books' => ctx'.brief = ctx.brief ∧ ctx'.records = ctx.records ∧ ctx'.reward.after = none ∧
        may e ∧ books' = books) ctx books := by
  simp only [grant, meets_bind, meets_get]
  by_cases hamount : ctx.userEarned ≤ 0
  · simp only [if_pos hamount, meets_pure, Either, Context.RewardMarks.Tell, Books.rewarded]
    exact ⟨trivial, trivial, hfresh, trivial⟩
  · simp only [if_neg hamount, meets_bind, meets_ask_books, ne_eq, reduceCtorEq, not_false_eq_true, implies_true,
      meets_keep, meets_modify, meets_pure, Either, Context.RewardMarks.Tell, Books.rewarded, Books.perform]
    have hbegun (before : Experience) : (begun ctx before).reward.after = none := by
      rw [reward_begun]
      exact hfresh
    refine ⟨⟨⟨?_, ?_, ?_, rfl⟩, fun e he => ⟨?_, ?_, hbegun _, he, trivial⟩⟩,
      fun e he => ⟨trivial, trivial, hfresh, he, trivial⟩⟩
    all_goals simp (disch := decide) only [Context.brief, Context.records, Context.reward, Context.kept, Context.keep,
      Context.withLevelBefore, Context.withLevelAfter, Snapshots.get?_insert_of_ne, Snapshots.get?_insert_self]
    simp only [Books.experience, Books.changeUserTotal, grantOf, Books.userTotal_setUserTotal_self]

theorem meets_revert_none (hfresh : ctx.reward.after = none) :
    revert.Meets (Books.protocol may Context) (Either (fun ctx' books' => ctx' = ctx ∧ books' = books)
      fun _ _ _ => False) ctx books := by
  have hafter : ctx.kept Snapshot.userTotalAfter = none := hfresh
  simp only [revert, meets_bind, meets_get, hafter]
  cases ctx.kept Snapshot.userTotalBefore <;> exact ⟨rfl, rfl⟩

theorem meets_revert {total amount : Int} (hmarks : ctx.reward = ⟨some total, some (total + amount), some amount⟩)
    (hamount : 0 < amount) (hbooks : books.userTotal ctx.request.user = total + amount) :
    revert.Meets (Books.protocol may Context) (Either
      (fun _ books' => books' = books.setUserTotal ctx.request.user total)
      fun _ _ books' => books' = books) ctx books := by
  have hbefore : ctx.kept Snapshot.userTotalBefore = some total := congrArg Context.RewardMarks.before hmarks
  have hafter : ctx.kept Snapshot.userTotalAfter = some (total + amount) := congrArg Context.RewardMarks.after hmarks
  have hgranted : ctx.kept Snapshot.userGranted = some amount := congrArg Context.RewardMarks.granted hmarks
  have hmoved : ¬ total + amount = total := by omega
  simp only [revert, meets_bind, meets_get, hbefore, hafter, hgranted, meets_ask_books, ne_eq, reduceCtorEq,
    not_false_eq_true, implies_true, Books.perform, Books.experience, hbooks, if_neg hmoved, not_true_eq_false,
    if_false, meets_modify, meets_pure, Either, and_true]
  simp only [Books.changeUserTotal, grantOf, hbooks]
  congr 1
  omega

end UserReward

namespace GuildReward

/-- The context of an addition that is under way: what the standing was is kept. -/
def begun (ctx : Context) (before : GuildExperience) : Context :=
  (ctx.keep Snapshot.guildTotalBefore before.total).keep Snapshot.guildLevelBefore before.level

theorem meets_grant {guild : Int} {m : Mission} (hguild : ctx.guild = some guild) (hmission : ctx.mission = some m) :
    grant.Meets (Books.protocol may Context) (Either
      (fun ctx' books' => ctx'.brief = ctx.brief ∧ ctx'.records = ctx.records ∧ ctx'.reward = ctx.reward ∧
        ctx'.closing = ctx.closing ∧ books' = books.guildRewarded guild ctx.guildEarned)
      fun e ctx' books' => ctx'.brief = ctx.brief ∧ ctx'.records = ctx.records ∧ ctx'.reward = ctx.reward ∧
        ctx'.closing = ctx.closing ∧ may e ∧ books' = books) ctx books := by
  have hid : ctx.missionId = some m.id := by rw [Context.missionId, hmission, Option.map_some]
  simp only [grant, meets_bind, meets_get, hguild, meets_require_some]
  by_cases hamount : ctx.guildEarned ≤ 0
  · simp only [if_pos hamount, meets_pure, Either, Books.guildRewarded]
    exact ⟨trivial, trivial, trivial, trivial, trivial⟩
  · simp only [if_neg hamount, credit, hid, meets_require_some, meets_bind, meets_get, meets_ask_books, ne_eq,
      reduceCtorEq, not_false_eq_true, implies_true, meets_keep, meets_pure, Either, Books.guildRewarded,
      Books.perform]
    refine ⟨⟨⟨?_, ?_, ?_, ?_, rfl⟩, fun e he => ⟨?_, ?_, ?_, ?_, he, trivial⟩⟩,
      fun e he => ⟨trivial, trivial, trivial, trivial, he, trivial⟩⟩
    all_goals simp (disch := decide) only [Context.brief, Context.records, Context.reward, Context.closing,
      Context.kept, Context.keep, Snapshots.get?_insert_of_ne]

end GuildReward

namespace Sharing

theorem meets_publish :
    publish.Meets (Books.protocol may Context)
      (fun _ ctx' books' => ctx'.brief = ctx.brief ∧ books.SharingAside books') ctx books := by
  simp only [publish, meets_bind, meets_get]
  cases hshare : ctx.request.share with
  | false => exact ⟨rfl, .refl books⟩
  | true =>
    rw [if_neg (by simp), meets_bind]
    cases ctx.target with
    | none => exact ⟨rfl, .refl books⟩
    | some target =>
      simp only [meets_require_some, draft, meets_bind, meets_get]
      cases ctx.missionId with
      | none => exact ⟨rfl, .refl books⟩
      | some mission =>
        have hpublished (entry : FeedDraft) : books.SharingAside (books.publish entry).2 := by constructor <;> rfl
        have hunpublished (entry : FeedDraft) (feed : Int) :
            books.SharingAside ((books.publish entry).2.unpublish feed) := by constructor <;> rfl
        simp only [meets_require_some, meets_pure, meets_bind, meets_ask_books, meets_query_books, ne_eq, reduceCtorEq,
          not_false_eq_true, implies_true, meets_throw, meets_modify, Books.perform]
        exact ⟨⟨⟨rfl, (hpublished _).trans (.setSharedFlag _ target true)⟩,
          fun _ _ => ⟨⟨trivial, hunpublished _ _⟩, fun _ _ => ⟨trivial, hpublished _⟩⟩⟩,
          fun _ _ => ⟨trivial, .refl books⟩⟩

end Sharing

end Missions
