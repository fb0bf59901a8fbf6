import Missions.Proofs.Completion.Contract
import Missions.Proofs.Ledger.Outage

namespace Missions.Procedure

variable {may : CompletionError → Prop} {c : Call} {ctx : Context} {books : Books}

theorem forall_answers (hc : ∀ id, c ≠ .completeExecution id) {R : Except CompletionError c.Answer → Books → Prop} :
    (∀ answer books', books.Answers may c answer books' → R answer books') ↔
      R (.ok (books.perform c).1) (books.perform c).2 ∧ ∀ e, may e → R (.error e) books := by
  constructor
  · exact fun h => ⟨h _ _ (.performed c), fun e he => h _ _ (.failed c he)⟩
  · rintro ⟨hperformed, hfailed⟩ answer books' hanswers
    cases hanswers with
    | performed => exact hperformed
    | failed _ he => exact hfailed _ he
    | claimLost id => exact absurd rfl (hc id)

theorem meets_ask_books (hc : ∀ id, c ≠ .completeExecution id)
    {Q : Except CompletionError c.Answer → Context → Books → Prop} :
    Meets (α := no_index _) (Books.protocol may Context) (ask c) Q ctx books ↔
      Q (.ok (books.perform c).1) ctx (books.perform c).2 ∧ ∀ e, may e → Q (.error e) ctx books := by
  rw [meets_ask]
  exact (and_iff_right trivial).trans (forall_answers hc)

theorem Meets.ask_bind (hc : ∀ id, c ≠ .completeExecution id) {β : Type} {f : c.Answer → Procedure β}
    {Q : Except CompletionError β → Context → Books → Prop} (hfailed : ∀ e, may e → Q (.error e) ctx books)
    (hperformed : (f (books.perform c).1).Meets (Books.protocol may Context) Q ctx (books.perform c).2) :
    (ask c >>= f).Meets (Books.protocol may Context) Q ctx books := by
  rw [meets_bind, meets_ask_books hc]
  exact ⟨hperformed, hfailed⟩

theorem meets_query_books (hc : ∀ id, c ≠ .completeExecution id)
    {Q : Except CompletionError (Except CompletionError c.Answer) → Context → Books → Prop} :
    Meets (α := no_index _) (Books.protocol may Context) (query c) Q ctx books ↔
      Q (.ok (.ok (books.perform c).1)) ctx (books.perform c).2 ∧ ∀ e, may e → Q (.ok (.error e)) ctx books := by
  rw [meets_query]
  exact (and_iff_right trivial).trans (forall_answers (R := fun answer => Q (.ok answer) ctx) hc)

theorem meets_ask_claim {id : Int} {Q : Except CompletionError Bool → Context → Books → Prop} :
    Meets (α := no_index _) (Books.protocol may Context) (ask (.completeExecution id)) Q ctx books ↔
      Q (.ok (books.completeExecution id).1) ctx (books.completeExecution id).2 ∧ Q (.ok false) ctx books ∧
        ∀ e, may e → Q (.error e) ctx books := by
  rw [meets_ask]
  constructor
  · rintro ⟨-, h⟩
    exact ⟨h _ _ (.performed _), h _ _ (.claimLost id), fun e he => h _ _ (.failed _ he)⟩
  · rintro ⟨hperformed, hlost, hfailed⟩
    refine ⟨trivial, fun answer books' hanswers => ?_⟩
    cases hanswers with
    | performed => exact hperformed
    | failed _ he => exact hfailed _ he
    | claimLost => exact hlost

end Missions.Procedure
