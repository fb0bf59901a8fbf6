import Missions.Proofs.Ledger.Outage
import Missions.Proofs.Saga.Tail

/-! Failures ahead of a world that a completion can overcome by trying again. -/

namespace Missions

/-- The methods whose failures steps can overcome by trying again. -/
def Method.isRetried : Method → Bool
  | grantExperience | countExecutions | addGuildExperience | createFeed => true
  | _ => false

namespace Faults

/-- How many failures await a method, of those that can be overcome. -/
def awaiting (f : Faults) : Method → Nat
  | .grantExperience => f.grants
  | .countExecutions => f.counts
  | .addGuildExperience => f.guildAdditions
  | .createFeed => f.feedCreations
  | _ => 0

theorem awaiting_of_not_isRetried (f : Faults) {m : Method} (h : m.isRetried = false) : f.awaiting m = 0 := by
  cases m <;> first | rfl | cases h

/-- Failures of such methods, at most as many as in `most`, and no other faults. -/
inductive Bounds (most : Faults) : Faults → Prop
  | ahead {grants counts guildAdditions feedCreations : Nat} (hgrants : grants ≤ most.grants)
      (hcounts : counts ≤ most.counts) (hadditions : guildAdditions ≤ most.guildAdditions)
      (hcreations : feedCreations ≤ most.feedCreations) :
      Bounds most { grants, counts, guildAdditions, feedCreations }

namespace Bounds

variable {most f : Faults} {c : Call}

theorem awaiting_le (h : most.Bounds f) (m : Method) : f.awaiting m ≤ most.awaiting m := by
  cases h
  cases m <;> first | assumption | exact Nat.zero_le _

theorem strike_none (h : most.Bounds f) (hc : f.awaiting c.method = 0) : f.strike c = (none, f) := by
  cases h
  cases c <;> first | rfl | (cases (show _ = 0 from hc); rfl)

theorem strike_some (h : most.Bounds f) (hc : f.awaiting c.method ≠ 0) :
    ∃ service message, ∃ f' : Faults, f.strike c = (some (.error (.collaborator service message)), f') ∧
      most.Bounds f' ∧ f'.awaiting c.method < f.awaiting c.method := by
  cases h with | @ahead grants counts additions creations hgrants hcounts hadditions hcreations =>
  cases c with
  | grantExperience =>
    obtain ⟨n, rfl⟩ := Nat.exists_eq_succ_of_ne_zero hc
    exact ⟨_, _, _, rfl, .ahead (Nat.le_of_succ_le hgrants) hcounts hadditions hcreations, Nat.lt_succ_self n⟩
  | countExecutions =>
    obtain ⟨n, rfl⟩ := Nat.exists_eq_succ_of_ne_zero hc
    exact ⟨_, _, _, rfl, .ahead hgrants (Nat.le_of_succ_le hcounts) hadditions hcreations, Nat.lt_succ_self n⟩
  | addGuildExperience =>
    obtain ⟨n, rfl⟩ := Nat.exists_eq_succ_of_ne_zero hc
    exact ⟨_, _, _, rfl, .ahead hgrants hcounts (Nat.le_of_succ_le hadditions) hcreations, Nat.lt_succ_self n⟩
  | createFeed =>
    obtain ⟨n, rfl⟩ := Nat.exists_eq_succ_of_ne_zero hc
    exact ⟨_, _, _, rfl, .ahead hgrants hcounts hadditions (Nat.le_of_succ_le hcreations), Nat.lt_succ_self n⟩
  | _ => exact absurd rfl hc

end Bounds

end Faults

def World.calm (w : World) : World := ⟨w.books, {}⟩

namespace Program

variable {σ α : Type}

theorem exists_serve_calm (p : Program σ α) (books : Books) :
    ∃ a books', (p.serve World.server).run ⟨books, {}⟩ = (a, ⟨books', {}⟩) := by
  induction p generalizing books with
  | done a => exact ⟨a, books, rfl⟩
  | call here c next ih =>
    have hanswer : (World.server c).run ⟨books, {}⟩ = (.ok (books.perform c).1, ⟨(books.perform c).2, {}⟩) := by
      rw [World.run_server, Faults.strike_empty]
    obtain ⟨a, books', hnext⟩ := ih (.ok (books.perform c).1) (books.perform c).2
    refine ⟨a, books', ?_⟩
    rw [serve, StateT.run_bind, hanswer]
    exact hnext

theorem Obeys.serve_unawaited {most f : Faults} (hf : most.Bounds f) {p : Program σ α} {Q : α → Unit → Prop}
    (h : p.Obeys (.calling σ fun c => f.awaiting c.method = 0) Q ()) (books : Books) :
    ∃ a books', (p.serve World.server).run ⟨books, {}⟩ = (a, ⟨books', {}⟩) ∧
      (p.serve World.server).run ⟨books, f⟩ = (a, ⟨books', f⟩) := by
  induction p generalizing books with
  | done a => exact ⟨a, books, rfl, rfl⟩
  | call here c next ih =>
    have hanswer {f' : Faults} (hstrike : f'.strike c = (none, f')) :
        (World.server c).run ⟨books, f'⟩ = (.ok (books.perform c).1, ⟨(books.perform c).2, f'⟩) := by
      rw [World.run_server, hstrike]
    obtain ⟨a, books', hcalm, hnext⟩ := ih (.ok (books.perform c).1) (h.2 _ () trivial) (books.perform c).2
    refine ⟨a, books', ?_, ?_⟩
    · rw [Program.serve, StateT.run_bind, hanswer (Faults.strike_empty c)]
      exact hcalm
    · rw [Program.serve, StateT.run_bind, hanswer (hf.strike_none h.1)]
      exact hnext

end Program

end Missions
