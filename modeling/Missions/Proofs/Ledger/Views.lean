import Missions.Proofs.Ledger.Protocol

namespace Missions

variable {σ τ α β G S ν : Type}

def Protocol.through (P : Protocol τ G) (f : σ → τ) : Protocol σ G where
  allowed here := P.allowed (f here)
  answered here := P.answered (f here)

namespace Program

/-- A program with the state that its calls show, and the state to which it comes, seen in another way. -/
def seen (f : σ → τ) : Program σ (α × σ) → Program τ (α × τ)
  | done r => done (r.1, f r.2)
  | call here c next => call (f here) c fun answer => (next answer).seen f

theorem seen_bind (f : σ → τ) (p : Program σ (α × σ)) {next : α × σ → Program σ (β × σ)}
    {next' : α × τ → Program τ (β × τ)} (h : ∀ a s, (next (a, s)).seen f = next' (a, f s)) :
    (p >>= next).seen f = p.seen f >>= next' := by
  induction p with
  | done r => exact h r.1 r.2
  | call here c later ih =>
    rw [call_bind, seen, seen, call_bind]
    exact congrArg _ (funext ih)

theorem run_serve_seen (server : Server S) (f : σ → τ) (p : Program σ (α × σ)) (s : S) :
    ((p.seen f).serve server).run s =
      ((((p.serve server).run s).1.1, f ((p.serve server).run s).1.2), ((p.serve server).run s).2) := by
  induction p generalizing s with
  | done r => rfl
  | call here c next ih => exact ih _ _

theorem obeys_seen {P : Protocol τ G} {f : σ → τ} {Q : α × τ → G → Prop} {p : Program σ (α × σ)} {g : G} :
    (p.seen f).Obeys P Q g ↔ p.Obeys (P.through f) (fun r => Q (r.1, f r.2)) g := by
  induction p generalizing g with
  | done r => rfl
  | call here c next ih =>
    rw [seen, obeys_call, obeys_call]
    exact and_congr_right' (forall₃_congr fun answer g' _ => ih answer)

def noted (note : Note ν) : Program σ (α × σ) → List ν → Program σ ((α × List ν) × σ)
  | done r, notes => done ((r.1, notes), r.2)
  | call here c next, notes => call here c fun answer => (next answer).noted note (notes ++ note c answer)

theorem obeys_noted {P : Protocol σ G} {note : Note ν} {Q : (α × List ν) × σ → G → Prop} {p : Program σ (α × σ)} {g : G}
    {notes : List ν} : (p.noted note notes).Obeys P Q g ↔
      p.Obeys (P.noting note) (fun r g => Q ((r.1, g.2), r.2) g.1) (g, notes) := by
  induction p generalizing g notes with
  | done r => rfl
  | call here c next ih =>
    rw [noted, obeys_call, obeys_call]
    refine and_congr_right' ⟨fun h answer g' hanswer => ?_, fun h answer g' hanswer => (ih answer).2 ?_⟩
    · obtain ⟨g', notes'⟩ := g'
      obtain ⟨hanswer, rfl⟩ := hanswer
      exact (ih answer).1 (h answer g' hanswer)
    · exact h answer (g', _) ⟨hanswer, rfl⟩

theorem seen_noted_bind {note : Note ν} {f : σ → τ} {f' : τ → σ} (hback : ∀ s, f' (f s) = s)
    {next : (α × List ν) × τ → Program τ (α × τ)}
    (hnext : ∀ a notes s, (next ((a, notes), f s)).seen f' = done (a, s)) (p : Program σ (α × σ)) (notes : List ν) :
    ((p.noted note notes).seen f >>= next).seen f' = p := by
  induction p generalizing notes with
  | done r => exact hnext r.1 notes r.2
  | call here c later ih =>
    rw [noted, seen, call_bind, seen, hback]
    exact congrArg _ (funext fun answer => ih answer _)

/-- A call that a server is asked to answer, with the state that it shows and the one that the server is in. -/
structure Moment (σ S : Type) where
  here : σ
  before : S
  call : Call

/-- What a server is asked while it serves a program. -/
def moments (server : Server S) : Program σ α → S → List (Moment σ S)
  | done _, _ => []
  | call here c next, w => ⟨here, w, c⟩ :: (next ((server c).run w).1).moments server ((server c).run w).2

theorem moments_seen (server : Server S) (f : σ → τ) (p : Program σ (α × σ)) (w : S) :
    (p.seen f).moments server w = (p.moments server w).map fun m => ⟨f m.here, m.before, m.call⟩ := by
  induction p generalizing w with
  | done r => rfl
  | call here c next ih => exact congrArg _ (ih _ _)

theorem moments_bind_pure (server : Server S) (f : α → β) (p : Program σ α) (w : S) :
    (p >>= fun a => pure (f a)).moments server w = p.moments server w := by
  induction p generalizing w with
  | done a => rfl
  | call here c next ih => exact congrArg _ (ih _ _)

theorem Obeys.moments {P : Protocol σ G} {Q : α → G → Prop} {p : Program σ α} {server : Server S} {view : S → G}
    {good : S → Prop} (hserver : P.Governs server view good) {w : S} (hw : good w) (h : p.Obeys P Q (view w)) :
    ∀ m ∈ p.moments server w, P.allowed m.here (view m.before) m.call := by
  induction p generalizing w with
  | done a => exact fun m hm => by cases hm
  | call here c next ih =>
    intro m hm
    rcases List.mem_cons.1 hm with rfl | hm
    · exact h.1
    · obtain ⟨hanswered, hgood⟩ := hserver here c w hw
      exact ih _ hgood (h.2 _ _ hanswered) m hm

end Program

end Missions
