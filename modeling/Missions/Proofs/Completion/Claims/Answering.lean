import Missions.Proofs.Completion.Claims.Standing
import Missions.Proofs.Ledger.Outage

namespace Missions

namespace Books

def status (books : Books) : Target → Option ExecutionStatus
  | .execution id => (books.executions.get? id).map (·.status)
  | .pinned id => (books.instances.get? id).map (·.status)

variable {books books' : Books} {c : Call} {answer : Except CompletionError c.Answer} {t : Target}
variable {may : CompletionError → Prop}

theorem completeExecution_cases (hkeyed : books.Keyed) (id : Int) :
    books.completeExecution id = (false, books) ∨
      ∃ x, x.id = id ∧ books.executions.get? id = some x ∧ x.status = .inProgress ∧
        books.completeExecution id = (true, books.putExecution { x with status := .completed }) := by
  rw [completeExecution]
  split
  · next x hx =>
    split
    · next hstatus => exact .inr ⟨x, hkeyed.executions id x hx, hx, hstatus, rfl⟩
    · exact .inl rfl
  · exact .inl rfl

theorem completeInstance_cases (hkeyed : books.Keyed) (id : Int) :
    books.completeInstance id = (false, books) ∨
      ∃ i, i.id = id ∧ books.instances.get? id = some i ∧ i.status = .inProgress ∧
        books.completeInstance id = (true, books.putInstance { i with status := .completed }) := by
  rw [completeInstance]
  split
  · next i hi =>
    split
    · next hstatus => exact .inr ⟨i, hkeyed.instances id i hi, hi, hstatus, rfl⟩
    · exact .inl rfl
  · exact .inl rfl

theorem status_putExecution (x : Execution) : (books.putExecution x).status (.execution x.id) = some x.status := by
  rw [status, putExecution, Table.get?_insert_self, Option.map_some]

theorem status_putInstance (i : Instance) : (books.putInstance i).status (.pinned i.id) = some i.status := by
  rw [status, putInstance, Table.get?_insert_self, Option.map_some]

theorem status_putExecution_of_ne {x : Execution} (h : t ≠ .execution x.id) :
    (books.putExecution x).status t = books.status t := by
  cases t with
  | pinned => rfl
  | execution id =>
    rw [status, putExecution, Table.get?_insert_of_ne _ fun hid => h (congrArg _ hid)]
    rfl

theorem status_putInstance_of_ne {i : Instance} (h : t ≠ .pinned i.id) :
    (books.putInstance i).status t = books.status t := by
  cases t with
  | execution => rfl
  | pinned id =>
    rw [status, putInstance, Table.get?_insert_of_ne _ fun hid => h (congrArg _ hid)]
    rfl

theorem Answers.status_of_claim (hkeyed : books.Keyed) (h : books.Answers may c answer books')
    (hclaims : Turn.claims c = some t) (hok : Turn.succeeds c answer = true) :
    books.status t = some .inProgress ∧ books'.status t = some .completed := by
  cases h with
  | failed => cases c <;> cases hok
  | claimLost => cases hok
  | performed =>
    cases c with
    | completeExecution id =>
      obtain rfl := Option.some.inj hclaims
      rcases books.completeExecution_cases hkeyed id with hlost | ⟨x, rfl, hx, hstatus, hclaimed⟩
      · simp [Turn.succeeds, perform, hlost] at hok
      · rw [perform, hclaimed]
        exact ⟨by rw [status, hx, Option.map_some, hstatus], status_putExecution { x with status := .completed }⟩
    | completeInstance id =>
      obtain rfl := Option.some.inj hclaims
      rcases books.completeInstance_cases hkeyed id with hlost | ⟨i, rfl, hi, hstatus, hclaimed⟩
      · simp [Turn.succeeds, perform, hlost] at hok
      · rw [perform, hclaimed]
        exact ⟨by rw [status, hi, Option.map_some, hstatus], status_putInstance { i with status := .completed }⟩
    | _ => cases hclaims

theorem Answers.status_eq (hkeyed : books.Keyed) (h : books.Answers may c answer books')
    (hclaims : Turn.claims c = some t → Turn.succeeds c answer = false)
    (hsaves : Turn.saves c = some t → Turn.succeeds c answer = false) : books'.status t = books.status t := by
  cases h with
  | failed | claimLost => rfl
  | performed =>
    cases c with
    | saveExecution x =>
      exact status_putExecution_of_ne fun ht => Bool.noConfusion (hsaves (congrArg some ht.symm))
    | saveInstance i =>
      exact status_putInstance_of_ne fun ht => Bool.noConfusion (hsaves (congrArg some ht.symm))
    | completeExecution id =>
      rcases books.completeExecution_cases hkeyed id with hlost | ⟨x, rfl, -, -, hclaimed⟩
      · rw [perform, hlost]
      · rw [perform, hclaimed] at hclaims ⊢
        exact status_putExecution_of_ne fun ht => Bool.noConfusion (hclaims (congrArg some ht.symm))
    | completeInstance id =>
      rcases books.completeInstance_cases hkeyed id with hlost | ⟨i, rfl, -, -, hclaimed⟩
      · rw [perform, hlost]
      · rw [perform, hclaimed] at hclaims ⊢
        exact status_putInstance_of_ne fun ht => Bool.noConfusion (hclaims (congrArg some ht.symm))
    | setShared target shared => cases target <;> cases t <;> rfl
    | _ => cases t <;> rfl

theorem Answers.truthful (hkeyed : books.Keyed) (h : books.Answers may c answer books') :
    Standing.Truthful c answer := by
  cases h with
  | failed => cases c <;> trivial
  | claimLost => trivial
  | performed =>
    cases c with
    | findExecution id =>
      change Standing.Truthful (.findExecution id) (.ok (books.executions.get? id))
      cases hx : books.executions.get? id with
      | none => trivial
      | some x => exact hkeyed.executions id x hx
    | findInstance id =>
      change Standing.Truthful (.findInstance id) (.ok (books.instances.get? id))
      cases hi : books.instances.get? id with
      | none => trivial
      | some i => exact hkeyed.instances id i hi
    | _ => trivial

end Books

end Missions
