import Missions.Saga.Run

/-! A saga is put together call by call. Two things remain of the order of the calls: that of the steps among
themselves, and for each name which of its overrides came last. -/

namespace Missions

variable {σ : Type} {m : Type → Type} [Monad m] {ε π : Type}

def Overrides.last? (rows : List (String × RetryPolicy)) (name : String) : Option RetryPolicy :=
  rows.reverse.lookup name

namespace Overrides

theorem last?_append (rows rows' : List (String × RetryPolicy)) (name : String) :
    last? (rows ++ rows') name = (last? rows' name).or (last? rows name) := by
  rw [last?, List.reverse_append, List.lookup_append]
  rfl

theorem last?_singleton (name' : String) (policy : RetryPolicy) (name : String) :
    last? [(name', policy)] name = if name = name' then some policy else none := by
  rw [last?, List.reverse_singleton, List.lookup_cons, List.lookup_nil]
  by_cases h : name = name'
  · rw [if_pos h, h, beq_self_eq_true]
  · rw [if_neg h, beq_eq_false_iff_ne.2 h]

theorem get?_insert_eq (t : Overrides) (row : String × RetryPolicy) (name : String) :
    (t.insert row.1 row.2).get? name = (last? [row] name).or (t.get? name) := by
  rw [last?_singleton]
  split
  · next h => rw [h, Table.get?_insert_self, Option.some_or]
  · next h => rw [Table.get?_insert_of_ne _ h, Option.none_or]

theorem get?_foldl_insert (rows : List (String × RetryPolicy)) (t : Overrides) (name : String) :
    (rows.foldl (fun t row => t.insert row.1 row.2) t).get? name = (last? rows name).or (t.get? name) := by
  induction rows generalizing t with
  | nil => rfl
  | cons row rest ih =>
    rw [List.foldl_cons, ih, get?_insert_eq, ← Option.or_assoc, ← last?_append, List.singleton_append]

end Overrides

/-! ### Calls -/

inductive Part (σ : Type) (m : Type → Type) [Monad m] (ε π : Type) where
  | step (step : Step σ m ε π)
  | override (name : String) (policy : RetryPolicy)

namespace Part

def step? : Part σ m ε π → Option (Step σ m ε π)
  | step s => some s
  | override .. => none

def override? : Part σ m ε π → Option (String × RetryPolicy)
  | step _ => none
  | override name policy => some (name, policy)

def addTo (saga : Saga σ m ε π) : Part σ m ε π → Saga σ m ε π
  | step s => saga.andThen s
  | override name policy => saga.override name policy

theorem steps_foldl_addTo (parts : List (Part σ m ε π)) (saga : Saga σ m ε π) :
    (parts.foldl addTo saga).steps = saga.steps ++ parts.filterMap step? := by
  induction parts generalizing saga with
  | nil => exact (List.append_nil _).symm
  | cons part rest ih =>
    cases part with
    | step s =>
      rw [List.foldl_cons, ih, List.filterMap_cons_some (f := step?) rfl, addTo, Saga.andThen, List.append_assoc,
        List.singleton_append]
    | override name policy =>
      rw [List.foldl_cons, ih, List.filterMap_cons_none rfl]
      rfl

theorem get?_foldl_addTo (parts : List (Part σ m ε π)) (saga : Saga σ m ε π) (name : String) :
    (parts.foldl addTo saga).overrides.get? name =
      (Overrides.last? (parts.filterMap override?) name).or (saga.overrides.get? name) := by
  induction parts generalizing saga with
  | nil => rfl
  | cons part rest ih =>
    rw [List.foldl_cons, ih]
    cases part with
    | step s =>
      rw [List.filterMap_cons_none rfl]
      rfl
    | override name' policy =>
      rw [List.filterMap_cons_some (f := override?) rfl, ← List.singleton_append, Overrides.last?_append,
        Option.or_assoc]
      exact congrArg _ (Overrides.get?_insert_eq saga.overrides (name', policy) name)

end Part

/-- The calls by which a saga is put together. Before its first step there can be overrides only. -/
structure Assembly (σ : Type) (m : Type → Type) [Monad m] (ε π : Type) where
  early : List (String × RetryPolicy) := []
  first : Step σ m ε π
  later : List (Part σ m ε π) := []

namespace Assembly

variable (a : Assembly σ m ε π)

def saga : Saga σ m ε π :=
  a.later.foldl Part.addTo (.starting (a.early.foldl (fun t row => t.insert row.1 row.2) ∅) a.first)

/-- The steps in the order in which they were added. -/
def steps : List (Step σ m ε π) := a.first :: a.later.filterMap Part.step?

/-- The overrides in the order in which they were given, whatever came between them. -/
def overrides : List (String × RetryPolicy) := a.early ++ a.later.filterMap Part.override?

/-- The policy that a step is to have: the last override of its name, or else its own. -/
def policyFor (step : Step σ m ε π) : RetryPolicy := (Overrides.last? a.overrides step.name).getD step.retry

theorem steps_saga : a.saga.steps = a.steps := Part.steps_foldl_addTo a.later _

theorem policyFor_saga (step : Step σ m ε π) : a.saga.policyFor step = a.policyFor step := by
  rw [Saga.policyFor, saga, Part.get?_foldl_addTo, Saga.starting, Overrides.get?_foldl_insert, Table.get?_empty,
    Option.or_none, ← Overrides.last?_append]
  rfl

end Assembly

/-! ### Runs -/

theorem Run.visit_congr {policy policy' : Step σ m ε π → RetryPolicy} {steps : List (Step σ m ε π)}
    (h : ∀ step ∈ steps, policy step = policy' step) : visit policy steps = visit policy' steps := by
  induction steps with
  | nil => rfl
  | cons step rest ih =>
    rw [visit, visit, h step List.mem_cons_self, ih fun step' hstep' => h step' (List.mem_cons_of_mem step hstep')]

/-- Assemblies of the same steps give sagas with the same run, if they end up with the same policy for each step. -/
theorem Assembly.run_congr {a b : Assembly σ m ε π} (hsteps : b.steps = a.steps)
    (hpolicy : ∀ step ∈ a.steps, b.policyFor step = a.policyFor step) : b.saga.run = a.saga.run := by
  rw [Saga.run, Saga.run, b.steps_saga, a.steps_saga, hsteps]
  refine Run.visit_congr fun step hstep => ?_
  rw [b.policyFor_saga, a.policyFor_saga, hpolicy step hstep]

end Missions
