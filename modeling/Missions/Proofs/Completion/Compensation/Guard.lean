import Missions.Ledger.Call
import Missions.Ledger.Error

/-! Compensation puts a record back only if it is still as the step had left it. How the values before and after are
weighed against the stored one is the same for every record, and is settled here before any step is looked at. -/

namespace Missions

/-- What putting records back comes to: the error if they could not be, the calls that wrote, and what was written
to. -/
structure Restoration (S : Type) where
  failure : Option CompletionError
  writes : List Call
  store : S

def Restoration.quiet {S : Type} (r : Restoration S) : Restoration S := ⟨r.failure, [], r.store⟩

def Restoration.map {S T : Type} (f : S → T) (r : Restoration S) : Restoration T := ⟨r.failure, r.writes, f r.store⟩

/-- What putting a record back goes by. `R` is what is stored of the record, `V` the value that is kept of it, and `S`
the store. -/
structure Guard (R V S : Type) where
  /-- The values before and after, if all were kept that the step needs. -/
  marks : Option (V × V)
  stored : Except CompletionError R
  value : R → V
  store : S
  restored : R → V → S
  write : R → V → Call
  /-- The error that the record was expected to have another value. -/
  conflict : R → V → CompletionError

namespace Guard

variable {R V S : Type}

structure Moved (g : Guard R V S) (r : R) (before after : V) : Prop where
  marks : g.marks = some (before, after)
  stored : g.stored = .ok r
  value : g.value r = after
  moved : after ≠ before

variable [DecidableEq V]

/-- The value from before needs nothing, the one from after is put back, and any other is a conflict. -/
def settle (g : Guard R V S) : Restoration S :=
  match g.marks, g.stored with
  | none, _ => ⟨none, [], g.store⟩
  | some _, .error e => ⟨some e, [], g.store⟩
  | some (before, after), .ok r =>
    if g.value r = before then ⟨none, [], g.store⟩
    else if g.value r = after then ⟨none, [g.write r before], g.restored r before⟩
    else ⟨some (g.conflict r after), [], g.store⟩

section

variable {g g' : Guard R V S} {before after : V} {r : R}

theorem settle_unmarked (hmarks : g.marks = none) : g.settle = ⟨none, [], g.store⟩ := by
  rw [settle, hmarks]

theorem settle_missing {e : CompletionError} (hmarks : g.marks = some (before, after)) (hstored : g.stored = .error e) :
    g.settle = ⟨some e, [], g.store⟩ := by
  rw [settle, hmarks, hstored]

theorem settle_already (hmarks : g.marks = some (before, after)) (hstored : g.stored = .ok r)
    (hbefore : g.value r = before) : g.settle = ⟨none, [], g.store⟩ := by
  simp only [settle, hmarks, hstored, if_pos hbefore]

theorem Moved.settle (h : g.Moved r before after) : g.settle = ⟨none, [g.write r before], g.restored r before⟩ := by
  simp only [Guard.settle, h.marks, h.stored, h.value, if_neg h.moved, if_true]

theorem settle_conflict (hmarks : g.marks = some (before, after)) (hstored : g.stored = .ok r)
    (hbefore : g.value r ≠ before) (hafter : g.value r ≠ after) :
    g.settle = ⟨some (g.conflict r after), [], g.store⟩ := by
  simp only [settle, hmarks, hstored, if_neg hbefore, if_neg hafter]

theorem settle_cases (g : Guard R V S) :
    (∃ failure, g.settle = ⟨failure, [], g.store⟩) ∨ ∃ r before after, g.Moved r before after := by
  rcases hmarks : g.marks with _ | ⟨before, after⟩
  · exact .inl ⟨_, settle_unmarked hmarks⟩
  rcases hstored : g.stored with e | r
  · exact .inl ⟨_, settle_missing hmarks hstored⟩
  by_cases hbefore : g.value r = before
  · exact .inl ⟨_, settle_already hmarks hstored hbefore⟩
  by_cases hafter : g.value r = after
  · exact .inr ⟨r, before, after, hmarks, hstored, hafter, hafter ▸ hbefore⟩
  · exact .inl ⟨_, settle_conflict hmarks hstored hbefore hafter⟩

/-- Where a record that was put back has its value from before, all is restored already for the next compensation, and
where nothing could be put back, nothing can. -/
theorem settle_again (hmarks : g'.marks = g.marks) (hstore : g'.store = g.settle.store)
    (hkept : g.settle.store = g.store → g' = g)
    (hmoved : ∀ r before after, g.Moved r before after → ∃ r', g'.stored = .ok r' ∧ g'.value r' = before) :
    g'.settle = g.settle.quiet := by
  rcases g.settle_cases with ⟨failure, hsettle⟩ | ⟨r, before, after, h⟩
  · rw [hkept (by rw [hsettle]), hsettle, Restoration.quiet]
  · obtain ⟨r', hstored, hbefore⟩ := hmoved r before after h
    rw [settle_already (hmarks.trans h.marks) hstored hbefore, hstore, h.settle, Restoration.quiet]

theorem failure_cases {e : CompletionError} (h : g.settle.failure = some e) :
    g.stored = .error e ∨ ∃ r after, e = g.conflict r after := by
  rcases hmarks : g.marks with _ | ⟨before, after⟩
  · rw [settle_unmarked hmarks] at h
    cases h
  rcases hstored : g.stored with e' | r
  · rw [settle_missing hmarks hstored] at h
    exact .inl (congrArg _ (Option.some.inj h))
  by_cases hbefore : g.value r = before
  · rw [settle_already hmarks hstored hbefore] at h
    cases h
  by_cases hafter : g.value r = after
  · rw [Moved.settle ⟨hmarks, hstored, hafter, hafter ▸ hbefore⟩] at h
    cases h
  · rw [settle_conflict hmarks hstored hbefore hafter] at h
    exact .inr ⟨r, after, (Option.some.inj h).symm⟩

end

end Guard

end Missions
