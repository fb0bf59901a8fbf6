import Mathlib.Algebra.BigOperators.Group.Finset.Piecewise
import Mathlib.Algebra.Order.BigOperators.Group.Finset
import Mathlib.Algebra.Ring.Int.Defs
import Mathlib.Data.Fintype.Basic
import Missions.Proofs.Completion.Claims.Winner
import Missions.Proofs.Completion.Experience.Tally
import Missions.Proofs.Completion.Rollback

/-! Completions of one user that run at the same time, call by call. Other runs can bring the user's total back to
what a run had read before its grant, and that run then takes its grant to be undone already. -/

namespace Missions

theorem Books.Answers.userTotal {books books' : Books} {may : CompletionError → Prop} {c : Call}
    {answer : Except CompletionError c.Answer} (h : books.Answers may c answer books') (user : String) :
    books'.userTotal user = books.userTotal user + Turn.net user c answer := by
  have hchanged (name : String) (amount : Int) : (books.changeUserTotal name amount).2.userTotal user =
      books.userTotal user + if name = user then amount else 0 := by
    rw [Books.changeUserTotal]
    by_cases hname : name = user
    · rw [if_pos hname, ← hname, Books.userTotal_setUserTotal_self]
    · rw [if_neg hname, Books.userTotal_setUserTotal_of_ne _ _ _ (Ne.symm hname), Int.add_zero]
  cases h with
  | failed c he => cases c <;> exact (Int.add_zero _).symm
  | claimLost => exact (Int.add_zero _).symm
  | performed =>
    cases c with
    | grantExperience grant => exact hchanged grant.user grant.amount
    | subtractExperience grant => exact hchanged grant.user (-grant.amount)
    | setShared target shared => cases target <;> exact (Int.add_zero _).symm
    | completeExecution id =>
      change (books.completeExecution id).2.userTotal user = _ + 0
      rw [Books.completeExecution]
      split
      · split <;> exact (Int.add_zero _).symm
      · exact (Int.add_zero _).symm
    | completeInstance id =>
      change (books.completeInstance id).2.userTotal user = _ + 0
      rw [Books.completeInstance]
      split
      · split <;> exact (Int.add_zero _).symm
      · exact (Int.add_zero _).symm
    | _ => exact (Int.add_zero _).symm

theorem Tally.left_foldl_after {user : String} (turns : List Turn) (g : Tally) :
    (turns.foldl (after user) g).left = g.left + (turns.map Turn.left).sum := by
  induction turns generalizing g with
  | nil => simp
  | cons turn rest ih => simp [ih, after, Int.add_assoc]

theorem Tally.strayed_foldl_after {user : String} (turns : List Turn) (g : Tally) :
    (turns.foldl (after user) g).strayed = true ↔
      g.strayed = true ∨ ∃ turn ∈ turns, Turn.findsBefore turn.here turn.call turn.answer = true := by
  induction turns generalizing g with
  | nil => simp
  | cons turn rest ih => simp [ih, after, or_assoc]

theorem Tally.found_foldl_after {user : String} {m : Mission} (turns : List Turn) (g : Tally)
    (h : (turns.foldl (after user) g).found = some m) :
    g.found = some m ∨ ∃ turn ∈ turns, Turn.missionFound turn.call turn.answer = some m := by
  induction turns generalizing g with
  | nil => exact .inl h
  | cons turn rest ih =>
    rcases ih _ h with hfound | ⟨turn', hturn', hfound⟩
    · cases hmission : Turn.missionFound turn.call turn.answer with
      | none =>
        simp only [after, hmission, Option.none_or] at hfound
        exact .inl hfound
      | some m' =>
        simp only [after, hmission, Option.some_or] at hfound
        exact .inr ⟨turn, List.mem_cons_self, hmission.trans hfound⟩
    · exact .inr ⟨turn', List.mem_cons_of_mem turn hturn', hfound⟩

namespace Pool

section Definitions

variable {ι : Type}

def Ended (pool : Pool ι) (i : ι) : Prop := ∃ result audit, pool.runs i = .done (.ok (result, audit))

/-- What a run that went through reports as the user's reward. -/
def rewarded (pool : Pool ι) (i : ι) : Int :=
  match pool.runs i with
  | .done (.ok (.ok completion, _)) => max completion.userEarned 0
  | _ => 0

/-- The rollback of the run has found the total from before its grant. -/
def Strays (pool : Pool ι) (i : ι) : Prop :=
  ∃ turn ∈ pool.turns i, Turn.findsBefore turn.here turn.call turn.answer = true

/-- What a run has left in the total when its rollback found the total from before its grant. -/
def left (pool : Pool ι) (i : ι) : Int := ((pool.turns i).map Turn.left).sum

def tally (user : String) (pool : Pool ι) (i : ι) : Tally := (pool.turns i).foldl (Tally.after user) {}

/-- A run makes its next call, or somebody else changes the books without touching the user's total. -/
inductive Move [DecidableEq ι] (user : String) (pool : Pool ι) : Pool ι → Prop
  | turn {i : ι} {pool' : Pool ι} (hstep : pool.Step (some i) pool') : Move user pool pool'
  | outside {books : Books} (htotal : books.userTotal user = pool.books.userTotal user) :
      Move user pool { pool with books }

def Moves [DecidableEq ι] (user : String) : Pool ι → Pool ι → Prop := Relation.ReflTransGen (Move user)

structure Balanced [Fintype ι] (user : String) (initial : Int) (pool : Pool ι) : Prop where
  obeys : ∀ i, (pool.runs i).Obeys (Tally.protocol user) Tally.Final (pool.tally user i)
  total : pool.books.userTotal user = initial + ∑ i, (pool.tally user i).granted

end Definitions

variable {ι : Type} {pool pool' : Pool ι} {i : ι} {user : String}

theorem left_tally (user : String) : (pool.tally user i).left = pool.left i := by
  rw [tally, Tally.left_foldl_after, left]
  exact Int.zero_add _

theorem strayed_tally (user : String) : (pool.tally user i).strayed = true ↔ pool.Strays i := by
  rw [tally, Tally.strayed_foldl_after, Strays]
  simp

theorem balanced_starting [Fintype ι] {books : Books} (operation : ι → Operation) (request : ι → Request)
    (huser : ∀ i, (request i).user = user) :
    (starting books operation request).Balanced user (books.userTotal user) where
  obeys i := Completion.obeys_complete_tally (operation i) (request i) (huser i)
  total := by simp [starting, tally]

theorem Balanced.ended [Fintype ι] {initial : Int} (h : pool.Balanced user initial) (hended : pool.Ended i)
    (hundone : ∀ e audit, pool.runs i = .done (.ok (.error e, audit)) → UserReward.step.name ∉ e.stepsNotUndone) :
    (pool.tally user i).granted = pool.rewarded i + pool.left i ∧ 0 ≤ pool.left i ∧
      (pool.left i = 0 ↔ ¬ pool.Strays i) := by
  have hobeys := h.obeys i
  rw [← left_tally user, ← strayed_tally user, Bool.not_eq_true]
  obtain ⟨result, audit, hrun⟩ := hended
  cases result with
  | ok completion =>
    rw [hrun] at hobeys
    obtain ⟨hgranted, hleft, hstrayed, -⟩ := hobeys.completed completion audit rfl
    have hrewarded : pool.rewarded i = max completion.userEarned 0 := by rw [rewarded, hrun]
    rw [hgranted, hleft, hstrayed, hrewarded]
    simp
  | error e =>
    have hclean := hundone e audit hrun
    rw [hrun] at hobeys
    obtain ⟨hgranted, hnonneg, hleft⟩ := hobeys.aborted e audit rfl hclean
    have hrewarded : pool.rewarded i = 0 := by rw [rewarded, hrun]
    rw [hgranted, hrewarded]
    exact ⟨(Int.zero_add _).symm, hnonneg, hleft⟩

variable [DecidableEq ι]

@[simp] theorem tally_play_self {turn : Turn} {next : Program Context _} {books : Books} :
    (pool.play i turn next books).tally user i = (pool.tally user i).after user turn := by
  simp [tally]

@[simp] theorem tally_play_of_ne {turn : Turn} {next : Program Context _} {books : Books} {k : ι} (h : k ≠ i) :
    (pool.play i turn next books).tally user k = pool.tally user k := by
  simp [tally, h]

theorem granted_play {turn : Turn} {next : Program Context _} {books : Books} (k : ι) :
    ((pool.play i turn next books).tally user k).granted =
      (pool.tally user k).granted + if k = i then Turn.net user turn.call turn.answer else 0 := by
  by_cases hk : k = i
  · subst hk
    rw [tally_play_self, if_pos rfl]
    rfl
  · rw [tally_play_of_ne hk, if_neg hk, Int.add_zero]

section

variable [Fintype ι] {initial : Int}

theorem Balanced.move (h : pool.Balanced user initial) (hmove : pool.Move user pool') :
    pool'.Balanced user initial := by
  cases hmove with
  | outside htotal => exact ⟨h.obeys, htotal.trans h.total⟩
  | @turn i _ hstep =>
    cases hstep with
    | @turn _ here c next answer books hrun hanswer =>
      have hobeys := h.obeys i
      rw [hrun] at hobeys
      obtain ⟨-, hnext⟩ := hobeys
      constructor
      · intro k
        by_cases hk : k = i
        · subst hk
          rw [runs_play_self, tally_play_self]
          exact hnext answer _ rfl
        · rw [runs_play_of_ne hk, tally_play_of_ne hk]
          exact h.obeys k
      · have hbooks : (pool.play i ⟨here, c, answer⟩ (next answer) books).books = books := rfl
        rw [hbooks, hanswer.userTotal user, h.total]
        simp only [granted_play, Finset.sum_add_distrib, Finset.sum_ite_eq', Finset.mem_univ, if_true]
        omega

theorem Balanced.moves (h : pool.Balanced user initial) (hmoves : pool.Moves user pool') :
    pool'.Balanced user initial := by
  induction hmoves with
  | refl => exact h
  | tail _ hmove ih => exact ih.move hmove

/-- When the runs have ended and none says that it could not take its grant back, the user's total has grown by what
the completed runs report, and by what the others have left. Nothing was left exactly if no run's rollback has found
the total from before its grant. -/
theorem userTotal_settled {books : Books} (operation : ι → Operation) (request : ι → Request)
    (huser : ∀ i, (request i).user = user) (hmoves : (starting books operation request).Moves user pool)
    (hended : ∀ i, pool.Ended i)
    (hundone : ∀ i e audit, pool.runs i = .done (.ok (.error e, audit)) →
      UserReward.step.name ∉ e.stepsNotUndone) :
    pool.books.userTotal user = books.userTotal user + ∑ i, pool.rewarded i + ∑ i, pool.left i ∧
    (pool.books.userTotal user = books.userTotal user + ∑ i, pool.rewarded i ↔ ∀ i, ¬ pool.Strays i) ∧
    ∀ i completion audit, pool.runs i = .done (.ok (.ok completion, audit)) →
      ∃ m, (∃ turn ∈ pool.turns i, Turn.missionFound turn.call turn.answer = some m) ∧
        completion.mission = m.id ∧ completion.userEarned = m.experience := by
  have hbalanced := (balanced_starting operation request huser).moves hmoves
  have hruns (i : ι) := hbalanced.ended (hended i) (hundone i)
  have htotal : pool.books.userTotal user = books.userTotal user + ∑ i, pool.rewarded i + ∑ i, pool.left i := by
    rw [hbalanced.total, Finset.sum_congr rfl fun i _ => (hruns i).1, Finset.sum_add_distrib]
    omega
  refine ⟨htotal, ?_, fun i completion audit hrun => ?_⟩
  · have hleft : ∑ i, pool.left i = 0 ↔ ∀ i, pool.left i = 0 := by
      rw [Finset.sum_eq_zero_iff_of_nonneg fun i _ => (hruns i).2.1]
      simp
    constructor
    · intro heq i
      refine (hruns i).2.2.1 (hleft.1 ?_ i)
      omega
    · intro hstrays
      have hnone := hleft.2 fun i => (hruns i).2.2.2 (hstrays i)
      omega
  · have hobeys := hbalanced.obeys i
    rw [hrun] at hobeys
    obtain ⟨-, -, -, m, hfound, hmission, hearned⟩ := hobeys.completed completion audit rfl
    refine ⟨m, ?_, hmission, hearned⟩
    rcases Tally.found_foldl_after (pool.turns i) {} hfound with hnone | hturn
    · cases hnone
    · exact hturn

end

theorem moves_foldl_advance (user : String) (pool : Pool ι) (order : List ι) :
    pool.Moves user (order.foldl advance pool) := by
  refine List.foldlRecOn order advance .refl fun pool' hmoves i _ => ?_
  rcases pool'.advance_cases i with heq | hstep
  · rwa [heq]
  · exact hmoves.tail (.turn hstep)

end Pool

namespace Fixture

/-- Three runs for one request. All of them load the same execution; the last one is granted its reward, claims the
execution and goes through. The second one is granted its reward, and takes it back after the first one has read the
total and before that is granted its own. -/
def straying : Pool (Fin 3) :=
  let order : List (Fin 3) :=
    List.replicate 3 0 ++ List.replicate 3 1 ++ List.replicate 10 2 ++ [1, 1, 0, 1, 1, 1, 0, 0, 0]
  order.foldl Pool.advance (.starting (plain.foldl World.disturb {}).books (fun _ => hasty) fun _ => request)

/-- How a run has ended: with the experience it reports, or with the steps it could not undo. -/
def ending? : Program Context (Except Interruption (Except CompletionError Completion × AuditLog)) →
    Option (Except (List String) Int)
  | .done (.ok (.ok completion, _)) => some (.ok completion.userEarned)
  | .done (.ok (.error e, _)) => some (.error e.stepsNotUndone)
  | _ => none

theorem ended_of_ending {ι : Type} {pool : Pool ι} {i : ι} (h : (ending? (pool.runs i)).isSome = true) :
    pool.Ended i := by
  rw [Pool.Ended]
  generalize pool.runs i = run at h ⊢
  obtain ⟨i | ⟨e | completion, audit⟩⟩ | _ := run
  · cases h
  · exact ⟨.error e, audit, rfl⟩
  · exact ⟨.ok completion, audit, rfl⟩
  · cases h

-- one conjunction, so that the runs are worked out only once
theorem straying_facts : (∀ i, ending? (straying.runs i) = if i = 2 then some (.ok 30) else some (.error [])) ∧
    straying.books.userTotal "user-1" = 60 ∧ (plain.foldl World.disturb {}).books.userTotal "user-1" = 0 := by
  decide +kernel

theorem endings_straying (i : Fin 3) :
    ending? (straying.runs i) = if i = 2 then some (.ok 30) else some (.error []) := straying_facts.1 i

theorem ended_straying (i : Fin 3) : straying.Ended i := by
  refine ended_of_ending ?_
  rw [endings_straying]
  split <;> rfl

theorem undone_straying (i : Fin 3) (e : CompletionError) (audit : AuditLog)
    (h : straying.runs i = .done (.ok (.error e, audit))) : UserReward.step.name ∉ e.stepsNotUndone := by
  have hending := endings_straying i
  rw [h] at hending
  split at hending
  · cases hending
  · rw [Except.error.inj (Option.some.inj hending)]
    exact List.not_mem_nil

theorem moves_straying :
    (Pool.starting (plain.foldl World.disturb {}).books (fun _ => hasty) fun _ => request).Moves "user-1" straying :=
  Pool.moves_foldl_advance _ _ _

def earned : Except (List String) Int → Int
  | .ok amount => max amount 0
  | .error _ => 0

theorem rewarded_of_ending {ι : Type} {pool : Pool ι} {i : ι} {ending : Except (List String) Int}
    (h : ending? (pool.runs i) = some ending) : pool.rewarded i = earned ending := by
  rw [Pool.rewarded]
  generalize pool.runs i = run at h ⊢
  obtain ⟨i | ⟨e | completion, audit⟩⟩ | _ := run
  · cases h
  · cases h
    rfl
  · cases h
    rfl
  · cases h

theorem sum_rewarded_straying : ∑ i, straying.rewarded i = 30 := by
  have hrewarded (i : Fin 3) : straying.rewarded i = if i = 2 then 30 else 0 := by
    by_cases hi : i = 2
    · rw [rewarded_of_ending ((endings_straying i).trans (if_pos hi)), if_pos hi]
      rfl
    · rw [rewarded_of_ending ((endings_straying i).trans (if_neg hi)), if_neg hi]
      rfl
  simp only [hrewarded, Finset.sum_ite_eq', Finset.mem_univ, if_true]

end Fixture

open Fixture in
theorem Pool.userTotal_settled_straying :
    straying.books.userTotal "user-1" = 60 ∧ ∑ i, straying.rewarded i = 30 ∧ ∑ i, straying.left i = 30 ∧
      ∃ i, straying.Strays i := by
  obtain ⟨-, htotal, hbefore⟩ := straying_facts
  have huser (i : Fin 3) : request.user = "user-1" := rfl
  obtain ⟨hsettled, hexact, -⟩ := Pool.userTotal_settled (fun _ => hasty) (fun _ => request) huser moves_straying
    ended_straying undone_straying
  rw [htotal, hbefore, sum_rewarded_straying] at hsettled hexact
  refine ⟨htotal, sum_rewarded_straying, by omega, ?_⟩
  by_contra hnone
  have heq := hexact.2 fun i hi => hnone ⟨i, hi⟩
  omega

open Fixture in
/-- Runs that have ended and have all taken back what they did not complete may still leave a grant in the total. -/
theorem Pool.userTotal_keeps_grant :
    (starting (plain.foldl World.disturb {}).books (fun _ => hasty) fun _ => request).Moves "user-1" straying ∧
      (∀ i, straying.Ended i) ∧
      (∀ i e audit, straying.runs i = .done (.ok (.error e, audit)) → UserReward.step.name ∉ e.stepsNotUndone) ∧
      straying.books.userTotal "user-1" ≠
        (plain.foldl World.disturb {}).books.userTotal "user-1" + ∑ i, straying.rewarded i := by
  obtain ⟨-, htotal, hbefore⟩ := straying_facts
  refine ⟨moves_straying, ended_straying, undone_straying, ?_⟩
  rw [htotal, hbefore, sum_rewarded_straying]
  decide

end Missions
