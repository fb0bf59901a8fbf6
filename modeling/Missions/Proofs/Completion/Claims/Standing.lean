import Missions.Proofs.Completion.Facets
import Missions.Proofs.Completion.Stages

/-! A run claims the record that it has loaded, and saves an execution or an instance only while it holds it. What a
run holds is read off from its calls and their answers. -/

namespace Missions

structure Turn where
  here : Context
  call : Call
  answer : Except CompletionError call.Answer

namespace Turn

def claims : Call → Option Target
  | .completeExecution id => some (.execution id)
  | .completeInstance id => some (.pinned id)
  | _ => none

def saves : Call → Option Target
  | .saveExecution x => some (.execution x.id)
  | .saveInstance i => some (.pinned i.id)
  | _ => none

/-- Whether the call was answered, and not with a claim that was lost. -/
def succeeds : (c : Call) → Except CompletionError c.Answer → Bool
  | .completeExecution _, .ok claimed => claimed
  | .completeInstance _, .ok claimed => claimed
  | _, .ok _ => true
  | _, .error _ => false

def PutsBack (turn : Turn) : Prop :=
  (turn.here.kept Snapshot.targetAfter).isSome ∧ (saves turn.call).isSome ∧ succeeds turn.call turn.answer

instance (turn : Turn) : Decidable turn.PutsBack := inferInstanceAs (Decidable (_ ∧ _))

end Turn

/-- What a run stands for: the record that it holds, and whether it has put back one that it had marked as closed. -/
structure Standing where
  held : Option Target := none
  putBack : Bool := false

namespace Standing

/-- A claim that holds gains the record, a save that succeeds gives it up. -/
def after (g : Standing) (turn : Turn) : Standing where
  held :=
    if Turn.succeeds turn.call turn.answer then
      match Turn.claims turn.call, Turn.saves turn.call with
      | some t, _ => some t
      | none, some _ => none
      | none, none => g.held
    else g.held
  putBack := g.putBack || decide turn.PutsBack

/-- A run that holds a record shows it as its own, and one that has marked it as closed holds it or has put it back. -/
structure Fair (g : Standing) (here : Context) : Prop where
  shown : ∀ t, g.held = some t → here.target = some t
  marked : (here.kept Snapshot.targetAfter).isSome → g.held.isSome ∨ g.putBack

/-- A record that is found has the number that was asked for. -/
def Truthful : (c : Call) → Except CompletionError c.Answer → Prop
  | .findExecution id, .ok (some x) => x.id = id
  | .findInstance id, .ok (some i) => i.id = id
  | _, _ => True

/-- A run claims the record that it shows, and saves only a record that it holds. -/
def protocol : Protocol Context Standing where
  allowed here g c := g.Fair here ∧ (∀ t, Turn.claims c = some t → here.target = some t) ∧
    ∀ t, Turn.saves c = some t → g.held = some t
  answered here g c answer g' := Truthful c answer ∧ g' = g.after ⟨here, c, answer⟩

/-- A call that neither claims nor saves a record. -/
def Quiet (c : Call) : Prop := Turn.claims c = none ∧ Turn.saves c = none

variable {g : Standing} {ctx : Context} {c : Call} {answer : Except CompletionError c.Answer}

theorem after_of_quiet (h : Quiet c) (answer : Except CompletionError c.Answer) : g.after ⟨ctx, c, answer⟩ = g := by
  obtain ⟨hclaims, hsaves⟩ := h
  simp [after, Turn.PutsBack, hclaims, hsaves]

theorem after_of_failed (h : Turn.succeeds c answer = false) : g.after ⟨ctx, c, answer⟩ = g := by
  simp [after, Turn.PutsBack, h]

theorem after_of_claim {t : Target} (hclaims : Turn.claims c = some t) (hsaves : Turn.saves c = none)
    (h : Turn.succeeds c answer = true) : g.after ⟨ctx, c, answer⟩ = { g with held := some t } := by
  simp [after, Turn.PutsBack, hclaims, hsaves, h]

theorem after_of_release {t : Target} (hclaims : Turn.claims c = none) (hsaves : Turn.saves c = some t)
    (hunmarked : ctx.kept Snapshot.targetAfter = none) (h : Turn.succeeds c answer = true) :
    g.after ⟨ctx, c, answer⟩ = { g with held := none } := by
  simp [after, Turn.PutsBack, hclaims, hsaves, hunmarked, h]

theorem Fair.after_save (h : g.Fair ctx) {t : Target} (hclaims : Turn.claims c = none) (hsaves : Turn.saves c = some t)
    (hmarked : (ctx.kept Snapshot.targetAfter).isSome) : (g.after ⟨ctx, c, answer⟩).Fair ctx := by
  cases hok : Turn.succeeds c answer with
  | true => constructor <;> simp [after, Turn.PutsBack, hclaims, hsaves, hmarked, hok]
  | false => rwa [after_of_failed hok]

theorem held_after {turn : Turn} {t : Target} (h : (g.after turn).held = some t) :
    (Turn.claims turn.call = some t ∧ Turn.succeeds turn.call turn.answer = true) ∨
      (g.held = some t ∧ (Turn.succeeds turn.call turn.answer = true →
        Turn.claims turn.call = none ∧ Turn.saves turn.call = none)) := by
  rw [after] at h
  dsimp only at h
  split at h
  · next hok =>
    split at h
    · next hclaims => exact .inl ⟨hclaims.trans h, hok⟩
    · cases h
    · next hclaims hsaves => exact .inr ⟨h, fun _ => ⟨hclaims, hsaves⟩⟩
  · next hfailed => exact .inr ⟨h, fun hok => absurd hok hfailed⟩

end Standing

end Missions
