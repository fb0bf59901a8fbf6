import Missions.Ledger.Call
import Missions.Ledger.Error

/-! A program is a tree of calls: it asks, and goes on with the answer or the error. What the calls mean is left to a
server. Each call shows the state that its caller is in, so that a program can be watched between its calls. -/

namespace Missions

inductive Program (σ α : Type) where
  | done (result : α)
  | call (here : σ) (c : Call) (next : Except CompletionError c.Answer → Program σ α)

/-- Answers calls one at a time, whoever makes them. A failing call answers an error. -/
abbrev Server (S : Type) : Type := (c : Call) → StateM S (Except CompletionError c.Answer)

namespace Program

variable {σ α β γ S : Type}

protected def bind : Program σ α → (α → Program σ β) → Program σ β
  | done a, f => f a
  | call here c next, f => call here c fun answer => (next answer).bind f

instance : Monad (Program σ) where
  pure := done
  bind := Program.bind

@[simp] theorem pure_eq (a : α) : (pure a : Program σ α) = done a := rfl

@[simp] theorem done_bind (a : α) (f : α → Program σ β) : done a >>= f = f a := rfl

@[simp] theorem call_bind (here : σ) (c : Call) (next : Except CompletionError c.Answer → Program σ α)
    (f : α → Program σ β) : call here c next >>= f = call here c fun answer => next answer >>= f := rfl

theorem bind_done (p : Program σ α) : p >>= done = p := by
  induction p with
  | done => rfl
  | call here c next ih => simp [ih]

protected theorem bind_assoc (p : Program σ α) (f : α → Program σ β) (g : β → Program σ γ) :
    p >>= f >>= g = p >>= fun a => f a >>= g := by
  induction p with
  | done => rfl
  | call here c next ih => simp [ih]

instance : LawfulMonad (Program σ) :=
  LawfulMonad.mk' (Program σ) bind_done (fun _ _ => rfl) Program.bind_assoc

def serve (server : Server S) : Program σ α → StateM S α
  | done a => pure a
  | call _ c next => do
    let answer ← server c
    (next answer).serve server

@[simp] theorem serve_done (server : Server S) (a : α) : (done a : Program σ α).serve server = pure a := rfl

theorem serve_bind (server : Server S) (p : Program σ α) (f : α → Program σ β) :
    (p >>= f).serve server = p.serve server >>= fun a => (f a).serve server := by
  induction p with
  | done a => simp
  | call here c next ih => simp [serve, ih]

theorem run_serve_bind (server : Server S) (p : Program σ α) (f : α → Program σ β) (s : S) :
    ((p >>= f).serve server).run s =
      ((f ((p.serve server).run s).1).serve server).run ((p.serve server).run s).2 := by
  rw [serve_bind]
  rfl

end Program

end Missions
