import Mathlib
import Missions.Proofs.Completion.Outcome
import Missions.Proofs.Saga.Assembly

/-! The rows of settings stand under names as they were written, and several spellings can name one step. So to set
the retries of a step decides them, unless another spelling stands behind the row that was set. -/

namespace Missions

/-! ### Names -/

namespace Text

theorem isBlank_of_isAlpha {c : Char} (h : c.isAlpha = true) : isBlank c = false := by
  have hletter : 65 ≤ c.toNat ∧ c.toNat ≤ 122 := by
    simp only [Char.isAlpha, Char.isUpper, Char.isLower, Bool.or_eq_true, Bool.and_eq_true, decide_eq_true_eq,
      ge_iff_le, UInt32.le_iff_toNat_le] at h
    change 65 ≤ c.toNat ∧ c.toNat ≤ 90 ∨ 97 ≤ c.toNat ∧ c.toNat ≤ 122 at h
    omega
  refine Bool.eq_false_iff.2 fun hblank => ?_
  simp only [isBlank, Bool.or_eq_true, Bool.and_eq_true, decide_eq_true_eq, beq_iff_eq, or_assoc] at hblank
  -- the blanks in a row of their own lie below or above the letters
  rcases hblank with ⟨-, hlow⟩ | rfl | rfl | rfl | rfl | ⟨hhigh, -⟩ | rfl | rfl | rfl | rfl | rfl
  · have hlow : c.toNat ≤ 13 := hlow
    omega
  case inr.inr.inr.inr.inr.inl =>
    have hhigh : 0x2000 ≤ c.toNat := hhigh
    omega
  all_goals exact absurd hletter (by decide)

theorem trim_eq (cs : List Char) : trim cs = (cs.dropWhile isBlank).rdropWhile isBlank := rfl

theorem isBlank_head?_trim {cs : List Char} {c : Char} (h : (trim cs).head? = some c) : isBlank c = false := by
  obtain ⟨rest, hrest⟩ := List.head?_eq_some_iff.1 h
  -- what is left begins as it did before its end was cut off
  obtain ⟨cut, hcut⟩ := List.rdropWhile_prefix isBlank (cs.dropWhile isBlank)
  rw [← trim_eq, hrest, List.cons_append] at hcut
  have hhead := List.head?_dropWhile_not isBlank cs
  rw [← hcut] at hhead
  simpa using hhead

theorem isBlank_getLast?_trim {cs : List Char} {c : Char} (h : (trim cs).getLast? = some c) : isBlank c = false := by
  rw [trim, List.getLast?_reverse] at h
  have hlast := List.head?_dropWhile_not isBlank (cs.dropWhile isBlank).reverse
  rw [h] at hlast
  simpa using hlast

theorem trim_of_ends {cs : List Char} (hfirst : ∀ c, cs.head? = some c → isBlank c = false)
    (hlast : ∀ c, cs.getLast? = some c → isBlank c = false) : trim cs = cs := by
  have hdrop : cs.dropWhile isBlank = cs := by
    cases cs with
    | nil => rfl
    | cons c rest => rw [List.dropWhile_cons, hfirst c rfl, if_neg Bool.false_ne_true]
  rw [trim_eq, hdrop, List.rdropWhile_eq_self_iff]
  intro hne
  simp [hlast _ (List.getLast?_eq_some_getLast hne)]

end Text

namespace Settings

def plain (c : Char) : Char := if c == '-' then '_' else c.toLower

theorem isBlank_plain (c : Char) : Text.isBlank (plain c) = Text.isBlank c := by
  rw [plain]
  split
  · next h =>
    obtain rfl := beq_iff_eq.1 h
    rfl
  · by_cases hupper : c.isUpper = true
    · have hletter : c.isAlpha = true := by simp [Char.isAlpha, hupper]
      rw [Text.isBlank_of_isAlpha hletter, Text.isBlank_of_isAlpha (c.isAlpha_toLower_eq_isAlpha.trans hletter)]
    · rw [Char.toLower_eq_of_not_isUpper hupper]

theorem plain_ne_hyphen (c : Char) : plain c ≠ '-' := by
  rw [plain]
  split
  · decide
  · next h =>
    intro hhyphen
    by_cases hupper : c.isUpper = true
    · have hletter : c.toLower.isAlpha = true := by simp [Char.isAlpha, hupper]
      rw [hhyphen] at hletter
      cases hletter
    · rw [Char.toLower_eq_of_not_isUpper hupper] at hhyphen
      simp [hhyphen] at h

theorem isUpper_plain (c : Char) : (plain c).isUpper = false := by
  rw [plain]
  split
  · rfl
  · exact Char.isUpper_toLower_eq_false c

theorem plain_of_small {c : Char} (hhyphen : c ≠ '-') (hupper : c.isUpper = false) : plain c = c := by
  rw [plain, if_neg (by simpa using hhyphen), Char.toLower_eq_of_not_isUpper (by simp [hupper])]

/-- A name as steps have it: no blanks around it, no hyphens and no capital letters. -/
structure Normal (name : String) : Prop where
  first : ∀ c, name.toList.head? = some c → Text.isBlank c = false
  last : ∀ c, name.toList.getLast? = some c → Text.isBlank c = false
  hyphen : ∀ c ∈ name.toList, c ≠ '-'
  upper : ∀ c ∈ name.toList, c.isUpper = false

theorem toList_normalize (name : String) : (normalize name).toList = (Text.trim name.toList).map plain :=
  String.toList_ofList

theorem normal_normalize (name : String) : Normal (normalize name) := by
  constructor <;> rw [toList_normalize]
  · intro c hc
    rw [List.head?_map] at hc
    obtain ⟨c', hc', rfl⟩ := Option.map_eq_some_iff.1 hc
    rw [isBlank_plain]
    exact Text.isBlank_head?_trim hc'
  · intro c hc
    rw [List.getLast?_map] at hc
    obtain ⟨c', hc', rfl⟩ := Option.map_eq_some_iff.1 hc
    rw [isBlank_plain]
    exact Text.isBlank_getLast?_trim hc'
  · intro c hc
    obtain ⟨c', -, rfl⟩ := List.mem_map.1 hc
    exact plain_ne_hyphen c'
  · intro c hc
    obtain ⟨c', -, rfl⟩ := List.mem_map.1 hc
    exact isUpper_plain c'

theorem normalize_of_normal {name : String} (h : Normal name) : normalize name = name := by
  apply String.toList_injective
  rw [toList_normalize, Text.trim_of_ends h.first h.last]
  have hplain : ∀ c ∈ name.toList, plain c = id c := fun c hc => plain_of_small (h.hyphen c hc) (h.upper c hc)
  rw [List.map_congr_left hplain, List.map_id]

theorem normalize_normalize (name : String) : normalize (normalize name) = normalize name :=
  normalize_of_normal (normal_normalize name)

/-! ### Rows -/

def behind {ν : Type} (name : String) : List (String × ν) → List (String × ν)
  | [] => []
  | (name', _) :: rest => if name' = name then rest else behind name rest

def asking (row : String × RetrySettings) : String × RetryPolicy := (normalize row.1, row.2.policy)

theorem last?_cons (row : String × RetryPolicy) (rest : List (String × RetryPolicy)) (step : String) :
    Overrides.last? (row :: rest) step =
      (Overrides.last? rest step).or (if step = row.1 then some row.2 else none) := by
  rw [← List.singleton_append, Overrides.last?_append, Overrides.last?_singleton]

theorem last?_assign_of_ne {name step : String} (h : step ≠ normalize name) (retry : RetrySettings)
    (rows : List (String × RetrySettings)) :
    Overrides.last? ((assign name retry rows).map asking) step = Overrides.last? (rows.map asking) step := by
  induction rows with
  | nil => simp [assign, asking, last?_cons, h]
  | cons row rest ih =>
    obtain ⟨name', retry'⟩ := row
    rw [assign]
    split
    · next heq => simp [asking, last?_cons, h, heq]
    · simp only [List.map_cons, last?_cons, ih]

theorem last?_assign_self {name : String} (h : normalize name = name) (retry : RetrySettings)
    (rows : List (String × RetrySettings)) :
    Overrides.last? ((assign name retry rows).map asking) name =
      (Overrides.last? ((behind name rows).map asking) name).or (some retry.policy) := by
  induction rows with
  | nil => simp [assign, behind, asking, last?_cons, h]
  | cons row rest ih =>
    obtain ⟨name', retry'⟩ := row
    rw [assign, behind]
    split
    · simp [asking, last?_cons, h]
    · simp [last?_cons, ih]

/-- The policy that another spelling of a step's name asks for, behind the row under the normalized name: the last
one's, if there are several. -/
def overruling? (s : Settings) (name : String) : Option RetryPolicy :=
  Overrides.last? ((behind (normalize name) s.steps).map asking) (normalize name)

/-! ### Checks -/

theorem validate_eq_ok_iff {s : Settings} {known : List String} :
    s.validate known = .ok () ↔ ∀ row ∈ s.steps, normalize row.1 ∈ known := by
  have hfind : s.steps.find? (fun row => !known.contains (normalize row.1)) = none ↔
      ∀ row ∈ s.steps, normalize row.1 ∈ known := by simp [List.find?_eq_none]
  rw [validate]
  split
  · next hrow => exact ⟨nofun, fun h => by cases (hfind.2 h).symm.trans hrow⟩
  · next hnone => exact ⟨fun _ => hfind.1 hnone, fun _ => rfl⟩

theorem exists_mem_assign {ν : Type} (name : String) (v : ν) {rows : List (String × ν)} {row : String × ν}
    (h : row ∈ rows) : ∃ v', (row.1, v') ∈ assign name v rows := by
  induction rows with
  | nil => cases h
  | cons first rest ih =>
    rw [assign]
    split
    · next heq =>
      rcases List.mem_cons.1 h with rfl | h
      · exact ⟨v, by rw [heq]; exact List.mem_cons_self⟩
      · exact ⟨row.2, List.mem_cons_of_mem _ h⟩
    · rcases List.mem_cons.1 h with rfl | h
      · exact ⟨row.2, List.mem_cons_self⟩
      · obtain ⟨v', hmem⟩ := ih h
        exact ⟨v', List.mem_cons_of_mem _ hmem⟩

theorem mem_assign_self {ν : Type} (name : String) (v : ν) (rows : List (String × ν)) :
    (name, v) ∈ assign name v rows := by
  induction rows with
  | nil => exact List.mem_cons_self
  | cons first rest ih =>
    rw [assign]
    split
    · exact List.mem_cons_self
    · exact List.mem_cons_of_mem _ ih

theorem validate_of_withStep {s : Settings} {name : String} {retry : RetrySettings} {known : List String}
    (h : (s.withStep name retry).validate known = .ok ()) :
    normalize name ∈ known ∧ s.validate known = .ok () := by
  rw [validate_eq_ok_iff] at h ⊢
  constructor
  · simpa only [normalize_normalize] using h _ (mem_assign_self (normalize name) retry s.steps)
  · intro row hrow
    obtain ⟨retry', hmem⟩ := exists_mem_assign (normalize name) retry hrow
    exact h (row.1, retry') hmem

end Settings

namespace Operation

open Settings

theorem overrides_foldl_override (rows : List (String × RetryPolicy))
    (saga : Saga Context (Program Context) CompletionError Receipt) :
    (rows.foldl (fun saga (name, policy) => saga.override name policy) saga).overrides =
      rows.foldl (fun t row => t.insert row.1 row.2) saga.overrides := by
  induction rows generalizing saga with
  | nil => rfl
  | cons row rest ih => exact ih _

theorem policyFor_saga_eq (o : Operation) (step : CompletionStep) :
    o.saga.policyFor step = (Overrides.last? (o.settings.steps.map asking) step.name).getD step.retry := by
  rw [Saga.policyFor, saga, overrides_foldl_override, Overrides.get?_foldl_insert]
  exact congrArg (Option.getD · _) (Option.or_none)

theorem new?_eq_ok_iff {s : Settings} {o : Operation} : new? s = .ok o ↔ o.settings = s := by
  rw [new?]
  split
  · next hvalid => exact ⟨fun h => by cases h; rfl, fun h => by subst h; rfl⟩
  · next hvalid => exact ⟨nofun, fun h => by subst h; rw [o.valid] at hvalid; cases hvalid⟩

/-- Setting a step's retries decides them as far as no other spelling of the step overrules it, and leaves every other
step the policy that it had. -/
theorem policyFor_withStep (s : Settings) (name : String) (retry : RetrySettings) {o' : Operation}
    (h : new? (s.withStep name retry) = .ok o') :
    normalize name ∈ stepNames ∧
      ∃ o, new? s = .ok o ∧
        ∀ step : CompletionStep, o'.saga.policyFor step =
          if step.name = normalize name then (s.overruling? name).getD retry.policy else o.saga.policyFor step := by
  have hsettings : o'.settings = s.withStep name retry := new?_eq_ok_iff.1 h
  obtain ⟨hname, hvalid⟩ := validate_of_withStep (hsettings ▸ o'.valid)
  refine ⟨hname, ⟨s, hvalid⟩, new?_eq_ok_iff.2 rfl, fun step => ?_⟩
  have hrows : o'.settings.steps = assign (normalize name) retry s.steps := congrArg steps hsettings
  rw [policyFor_saga_eq, policyFor_saga_eq, hrows]
  split
  · next hstep =>
    rw [hstep, last?_assign_self (normalize_normalize name), Option.getD_or]
    rfl
  · next hstep => rw [last?_assign_of_ne (by rwa [normalize_normalize])]

/-- Settings with a step under its own name, and with the step again under what comes before or after that name. -/
def spelled : Settings where
  steps := [("Grant-User-Experience", ⟨2, 0⟩), ("grant_user_experience", ⟨5, 0⟩), ("grant_user_experience ", ⟨0, 0⟩)]
  distinct := by decide

theorem policyFor_withStep_spelled :
    ∃ o' o : Operation, new? (spelled.withStep "grant-guild-experience" ⟨1, 0⟩) = .ok o' ∧ new? spelled = .ok o ∧
      o'.saga.policyFor GuildReward.step = ⟨1, 0⟩ ∧
      o'.saga.policyFor UserReward.step = o.saga.policyFor UserReward.step := by
  have hvalid : (spelled.withStep "grant-guild-experience" ⟨1, 0⟩).validate stepNames = .ok () :=
    validate_eq_ok_iff.2 (by decide +kernel)
  obtain ⟨-, o, ho, hpolicy⟩ := policyFor_withStep spelled "grant-guild-experience" ⟨1, 0⟩
    (new?_eq_ok_iff.2 (rfl : (Operation.mk _ hvalid).settings = _))
  have hguild := hpolicy GuildReward.step
  have huser := hpolicy UserReward.step
  rw [if_pos (by decide +kernel)] at hguild
  rw [if_neg (by decide +kernel)] at huser
  exact ⟨_, o, new?_eq_ok_iff.2 rfl, ho, hguild.trans (by decide +kernel), huser⟩

/-- The spelling behind the row that is set keeps its say. -/
theorem policyFor_withStep_overruled :
    ∃ o' : Operation, new? (spelled.withStep "grant_user_experience" ⟨1, 0⟩) = .ok o' ∧
      normalize "grant_user_experience" = UserReward.step.name ∧ UserReward.step ∈ o'.saga.steps ∧
      o'.saga.policyFor UserReward.step ≠ RetrySettings.policy ⟨1, 0⟩ := by
  have hvalid : (spelled.withStep "grant_user_experience" ⟨1, 0⟩).validate stepNames = .ok () :=
    validate_eq_ok_iff.2 (by decide +kernel)
  refine ⟨⟨_, hvalid⟩, new?_eq_ok_iff.2 rfl, by decide +kernel, by simp [steps_saga], ?_⟩
  rw [policyFor_saga_eq]
  change (Overrides.last? ((spelled.withStep "grant_user_experience" ⟨1, 0⟩).steps.map asking) _).getD _ ≠ _
  decide +kernel

end Operation

end Missions
