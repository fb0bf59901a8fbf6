import Missions.Completion.Procedure
import Missions.Proofs.Ledger.Protocol

/-! What a procedure comes to under a protocol, from a context on. Rewriting with the rules turns a body into the
conditions on its calls. -/

namespace Missions.Procedure

variable {G α β : Type} {P : Protocol Context G}

/-- Under the protocol the procedure ends, with a value or an error, as `Q` says. -/
def Meets (P : Protocol Context G) (p : Procedure α) (Q : Except CompletionError α → Context → G → Prop)
    (ctx : Context) (g : G) : Prop :=
  (p.run.run ctx).Obeys P (fun r g => Q r.1 r.2 g) g

theorem Meets.mono {p : Procedure α} {Q Q' : Except CompletionError α → Context → G → Prop} {ctx : Context} {g : G}
    (h : p.Meets P Q ctx g) (hQ : ∀ r ctx g, Q r ctx g → Q' r ctx g) : p.Meets P Q' ctx g :=
  Program.Obeys.mono h fun r g => hQ r.1 r.2 g

theorem Meets.and {p : Procedure α} {Q Q' : Except CompletionError α → Context → G → Prop} {ctx : Context} {g : G}
    (h : p.Meets P Q ctx g) (h' : p.Meets P Q' ctx g) : p.Meets P (fun r ctx g => Q r ctx g ∧ Q' r ctx g) ctx g :=
  Program.Obeys.and h h'

theorem meets_pure {a : α} {Q : Except CompletionError α → Context → G → Prop} {ctx : Context} {g : G} :
    (pure a : Procedure α).Meets P Q ctx g ↔ Q (.ok a) ctx g := Iff.rfl

theorem meets_throw {e : CompletionError} {Q : Except CompletionError α → Context → G → Prop} {ctx : Context} {g : G} :
    (throw e : Procedure α).Meets P Q ctx g ↔ Q (.error e) ctx g := Iff.rfl

theorem meets_bind {p : Procedure α} {f : α → Procedure β} {Q : Except CompletionError β → Context → G → Prop}
    {ctx : Context} {g : G} : (p >>= f).Meets P Q ctx g ↔ p.Meets P (fun r ctx g =>
      match r with
      | .ok a => (f a).Meets P Q ctx g
      | .error e => Q (.error e) ctx g) ctx g := by
  rw [Meets, run_bind, Program.obeys_bind]
  refine Program.obeys_congr fun r g => ?_
  obtain ⟨_ | _, _⟩ := r <;> rfl

theorem meets_get {Q : Except CompletionError Context → Context → G → Prop} {ctx : Context} {g : G} :
    (get : Procedure Context).Meets P Q ctx g ↔ Q (.ok ctx) ctx g := Iff.rfl

theorem meets_modify {f : Context → Context} {Q : Except CompletionError Unit → Context → G → Prop} {ctx : Context}
    {g : G} : (modify f : Procedure Unit).Meets P Q ctx g ↔ Q (.ok ()) (f ctx) g := Iff.rfl

theorem meets_keep {t : SnapshotType} {key : SnapshotKey t} {v : t.Value}
    {Q : Except CompletionError Unit → Context → G → Prop} {ctx : Context} {g : G} :
    (keep key v).Meets P Q ctx g ↔ Q (.ok ()) (ctx.keep key v) g := Iff.rfl

theorem meets_require_some {a : α} {e : CompletionError} {Q : Except CompletionError α → Context → G → Prop}
    {ctx : Context} {g : G} : (require (some a) e).Meets P Q ctx g ↔ Q (.ok a) ctx g := Iff.rfl

theorem meets_check {holds : Bool} {e : CompletionError} {Q : Except CompletionError Unit → Context → G → Prop}
    {ctx : Context} {g : G} :
    (check holds e).Meets P Q ctx g ↔ Q (if holds then .ok () else .error e) ctx g := by
  cases holds <;> rfl

theorem Meets.require_bind {found : Option α} {e : CompletionError} {f : α → Procedure β}
    {Q : Except CompletionError β → Context → G → Prop} {ctx : Context} {g : G} (hnone : Q (.error e) ctx g)
    (hsome : ∀ a, found = some a → (f a).Meets P Q ctx g) : (require found e >>= f).Meets P Q ctx g := by
  rw [meets_bind]
  cases found with
  | none => exact hnone
  | some a => exact hsome a rfl

theorem Meets.check_bind {holds : Bool} {e : CompletionError} {f : Unit → Procedure β}
    {Q : Except CompletionError β → Context → G → Prop} {ctx : Context} {g : G} (hfails : Q (.error e) ctx g)
    (hholds : holds = true → (f ()).Meets P Q ctx g) : (check holds e >>= f).Meets P Q ctx g := by
  rw [meets_bind, meets_check]
  cases holds with
  | false => exact hfails
  | true => exact hholds rfl

theorem meets_outcome {p : Procedure α} {Q : Except CompletionError (Except CompletionError α) → Context → G → Prop}
    {ctx : Context} {g : G} :
    (outcome p).Meets P Q ctx g ↔ p.Meets P (fun r ctx g => Q (.ok r) ctx g) ctx g := by
  rw [Meets, run_outcome, Program.obeys_bind]
  rfl

-- the types are kept out of the index, because the answer to a known call has its type written out
theorem meets_ask {c : Call} {Q : Except CompletionError c.Answer → Context → G → Prop} {ctx : Context} {g : G} :
    Meets (α := no_index _) P (ask c) Q ctx g ↔ P.allowed ctx g c ∧
      ∀ answer g', P.answered ctx g c answer g' → Q answer ctx g' := Iff.rfl

theorem meets_query {c : Call} {Q : Except CompletionError (Except CompletionError c.Answer) → Context → G → Prop}
    {ctx : Context} {g : G} : Meets (α := no_index _) P (query c) Q ctx g ↔ P.allowed ctx g c ∧
      ∀ answer g', P.answered ctx g c answer g' → Q (.ok answer) ctx g' := Iff.rfl

theorem obeys_settle {doing : String} {rejects : CompletionError → Bool} {body : Procedure Success}
    {Q : CompletionResult × Context → G → Prop} {ctx : Context} {g : G} :
    ((settle doing rejects body).run ctx).Obeys P Q g ↔ body.Meets P (fun r ctx g =>
      match r with
      | .ok success => Q (.success success.message success.receipt, ctx) g
      | .error e => Q (if rejects e then .rejected (doing ++ ": " ++ e.message) e
          else .transient (doing ++ ": " ++ e.message) (some e), ctx) g) ctx g := by
  rw [run_settle, Program.obeys_bind]
  refine Program.obeys_congr fun r g => ?_
  obtain ⟨_ | _, _⟩ := r <;> rfl

/-! ### Calls noted down -/

variable {ν : Type} {note : Note ν} {notes : List ν}

theorem Meets.of_noting {p : Procedure α} {Q : Except CompletionError α → Context → G → Prop} {ctx : Context} {g : G}
    (h : p.Meets (P.noting note) (fun r ctx g => Q r ctx g.1) ctx (g, notes)) : p.Meets P Q ctx g :=
  Program.Obeys.of_noting h

theorem meets_ask_noting {c : Call} {Q : Except CompletionError c.Answer → Context → G × List ν → Prop} {ctx : Context}
    {g : G} : Meets (α := no_index _) (P.noting note) (ask c) Q ctx (g, notes) ↔
      (ask c).Meets P (fun r ctx g => Q r ctx (g, notes ++ note c r)) ctx g := by
  rw [meets_ask, meets_ask]
  refine and_congr_right' ⟨fun h answer g' hanswer => h answer (g', _) ⟨hanswer, rfl⟩, fun h answer g' hanswer => ?_⟩
  obtain ⟨g', noted⟩ := g'
  obtain ⟨hanswer, rfl⟩ := hanswer
  exact h answer g' hanswer

theorem meets_query_noting {c : Call}
    {Q : Except CompletionError (Except CompletionError c.Answer) → Context → G × List ν → Prop} {ctx : Context}
    {g : G} : Meets (α := no_index _) (P.noting note) (query c) Q ctx (g, notes) ↔
      (ask c).Meets P (fun r ctx g => Q (.ok r) ctx (g, notes ++ note c r)) ctx g :=
  (meets_query.trans meets_ask.symm).trans meets_ask_noting

end Missions.Procedure
