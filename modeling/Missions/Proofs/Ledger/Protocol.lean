import Missions.Ledger.Program

/-! A protocol says which calls a caller may make from where it stands, and which answers may come. A program obeys a
protocol if it makes only calls that it may, whatever it is answered, and comes to a result with the wanted property.
-/

namespace Missions

/-- Terms between a caller and those it calls. `σ` is the state that a call shows, `G` is where the parties stand. -/
structure Protocol (σ G : Type) where
  allowed : σ → G → Call → Prop
  answered : σ → G → (c : Call) → Except CompletionError c.Answer → G → Prop

namespace Program

variable {σ G S α β : Type} {P : Protocol σ G}

def Obeys (P : Protocol σ G) (Q : α → G → Prop) : Program σ α → G → Prop
  | done a, g => Q a g
  | call here c next, g => P.allowed here g c ∧
      ∀ answer g', P.answered here g c answer g' → (next answer).Obeys P Q g'

theorem obeys_call {Q : α → G → Prop} {here : σ} {c : Call} {next : Except CompletionError c.Answer → Program σ α}
    {g : G} : (call here c next).Obeys P Q g ↔ P.allowed here g c ∧
      ∀ answer g', P.answered here g c answer g' → (next answer).Obeys P Q g' := Iff.rfl

theorem obeys_bind {Q : β → G → Prop} {p : Program σ α} {f : α → Program σ β} {g : G} :
    (p >>= f).Obeys P Q g ↔ p.Obeys P (fun a g => (f a).Obeys P Q g) g := by
  induction p generalizing g with
  | done a => rfl
  | call here c next ih =>
    rw [call_bind, obeys_call, obeys_call]
    exact and_congr_right' (forall₃_congr fun answer g' _ => ih answer)

theorem Obeys.mono {Q Q' : α → G → Prop} {p : Program σ α} {g : G} (h : p.Obeys P Q g)
    (hQ : ∀ a g, Q a g → Q' a g) : p.Obeys P Q' g := by
  induction p generalizing g with
  | done a => exact hQ a g h
  | call here c next ih => exact ⟨h.1, fun answer g' hanswer => ih answer (h.2 answer g' hanswer)⟩

theorem obeys_congr {Q Q' : α → G → Prop} {p : Program σ α} {g : G} (hQ : ∀ a g, Q a g ↔ Q' a g) :
    p.Obeys P Q g ↔ p.Obeys P Q' g :=
  ⟨fun h => h.mono fun a g => (hQ a g).1, fun h => h.mono fun a g => (hQ a g).2⟩

theorem Obeys.and {Q Q' : α → G → Prop} {p : Program σ α} {g : G} (h : p.Obeys P Q g) (h' : p.Obeys P Q' g) :
    p.Obeys P (fun a g => Q a g ∧ Q' a g) g := by
  induction p generalizing g with
  | done a => exact ⟨h, h'⟩
  | call here c next ih =>
    exact ⟨h.1, fun answer g' hanswer => ih answer (h.2 answer g' hanswer) (h'.2 answer g' hanswer)⟩

theorem obeys_of_allowed (hallowed : ∀ here g c, P.allowed here g c) (p : Program σ α) (g : G) :
    p.Obeys P (fun _ _ => True) g := by
  induction p generalizing g with
  | done a => trivial
  | call here c next ih => exact ⟨hallowed here g c, fun answer g' _ => ih answer g'⟩

theorem Obeys.stricter {P' : Protocol σ G} (hallowed : ∀ here g c, P.allowed here g c → P'.allowed here g c)
    (hanswered : ∀ here g c answer g', P'.answered here g c answer g' → P.answered here g c answer g')
    {Q : α → G → Prop} {p : Program σ α} {g : G} (h : p.Obeys P Q g) : p.Obeys P' Q g := by
  induction p generalizing g with
  | done a => exact h
  | call here c next ih =>
    refine ⟨hallowed here g c h.1, fun answer g' hanswer => ?_⟩
    exact ih answer (h.2 answer g' (hanswered here g c answer g' hanswer))

end Program

/-- From good states on, a server keeps to a protocol: its answers are among those that may come, and it stays in good
states. `view` tells where the parties stand. -/
def Protocol.Governs {σ G S : Type} (P : Protocol σ G) (server : Server S) (view : S → G) (good : S → Prop) : Prop :=
  ∀ here c s, good s →
    P.answered here (view s) c ((server c).run s).1 (view ((server c).run s).2) ∧ good ((server c).run s).2

/-- What a program comes to under a protocol, it comes to with every server that keeps to the protocol. -/
theorem Program.Obeys.serve {σ G S α : Type} {P : Protocol σ G} {Q : α → G → Prop} {p : Program σ α}
    {server : Server S} {view : S → G} {good : S → Prop} (hserver : P.Governs server view good) {s : S} (hs : good s)
    (h : p.Obeys P Q (view s)) : Q ((p.serve server).run s).1 (view ((p.serve server).run s).2) := by
  induction p generalizing s with
  | done a => exact h
  | call here c next ih =>
    obtain ⟨hanswered, hgood⟩ := hserver here c s hs
    exact ih _ hgood (h.2 _ _ hanswered)

/-! ### Calls noted down -/

abbrev Note (ν : Type) : Type := (c : Call) → Except CompletionError c.Answer → List ν

def Method.writes : Method → Bool
  | grantExperience | subtractExperience | addGuildExperience | subtractGuildExperience | createFeed | deleteFeed
  | setShared | saveParticipant | saveExecution | completeExecution | saveInstance | completeInstance => true
  | currentExperience | guildExperience | findMission | findParticipant | findExecution | findExecutionInProgress
  | countExecutions | findInstance => false

namespace Note

/-- The error that a call was answered, if it was. -/
def errors : Note CompletionError
  | _, .ok _ => []
  | _, .error e => [e]

def writes : Note Call := fun c _ => if c.method.writes then [c] else []

end Note

variable {σ G S ν : Type}

def Protocol.noting (P : Protocol σ G) (note : Note ν) : Protocol σ (G × List ν) where
  allowed here g := P.allowed here g.1
  answered here g c answer g' := P.answered here g.1 c answer g'.1 ∧ g'.2 = g.2 ++ note c answer

/-- The server with notes of the calls that it has answered so far. -/
def Server.noting (server : Server S) (note : Note ν) : Server (S × List ν) := fun c s =>
  let answered := (server c).run s.1
  (answered.1, answered.2, s.2 ++ note c answered.1)

theorem Protocol.Governs.noting {P : Protocol σ G} {server : Server S} {view : S → G} {good : S → Prop}
    (h : P.Governs server view good) (note : Note ν) :
    (P.noting note).Governs (server.noting note) (Prod.map view id) fun s => good s.1 :=
  fun here c s hs => ⟨⟨(h here c s.1 hs).1, rfl⟩, (h here c s.1 hs).2⟩

namespace Program

variable {α : Type} {note : Note ν}

theorem serve_noting (note : Note ν) (server : Server S) (p : Program σ α) (s : S) (notes : List ν) :
    ((p.serve (server.noting note)).run (s, notes)).1 = ((p.serve server).run s).1 ∧
      ((p.serve (server.noting note)).run (s, notes)).2.1 = ((p.serve server).run s).2 := by
  induction p generalizing s notes with
  | done a => exact ⟨rfl, rfl⟩
  | call here c next ih => exact ih _ _ _

theorem serve_of_noting {server : Server S} {p : Program σ α} {s s' : S} {notes notes' : List ν} {a : α}
    (h : (p.serve (server.noting note)).run (s, notes) = (a, (s', notes'))) : (p.serve server).run s = (a, s') := by
  obtain ⟨hresult, hstate⟩ := serve_noting note server p s notes
  rw [h] at hresult hstate
  exact Prod.ext hresult.symm hstate.symm

/-- What a program comes to without notes it comes to with them, under terms by which no other answers may come. -/
theorem Obeys.and_noting {P P' : Protocol σ G} {Q : α → G → Prop} {Q' : α → G × List ν → Prop} {p : Program σ α} {g : G}
    {notes : List ν} (h : p.Obeys P Q g) (h' : p.Obeys (P'.noting note) Q' (g, notes))
    (hanswered : ∀ here g c answer g', P'.answered here g c answer g' → P.answered here g c answer g') :
    p.Obeys (P'.noting note) (fun a g => Q a g.1 ∧ Q' a g) (g, notes) := by
  induction p generalizing g notes with
  | done a => exact ⟨h, h'⟩
  | call here c next ih =>
    refine ⟨h'.1, fun answer g' hanswer => ?_⟩
    exact ih answer (h.2 answer g'.1 (hanswered here g c answer g'.1 hanswer.1)) (h'.2 answer g' hanswer)

theorem Obeys.of_noting {P : Protocol σ G} {Q : α → G → Prop} {p : Program σ α} {g : G} {notes : List ν}
    (h : p.Obeys (P.noting note) (fun a g => Q a g.1) (g, notes)) : p.Obeys P Q g := by
  induction p generalizing g notes with
  | done a => exact h
  | call here c next ih => exact ⟨h.1, fun answer g' hanswer => ih answer (h.2 answer (g', _) ⟨hanswer, rfl⟩)⟩

end Program

end Missions
