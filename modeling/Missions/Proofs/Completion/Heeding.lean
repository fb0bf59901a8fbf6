import Missions.Proofs.Completion.Tuning

/-! No row of accepted settings goes unheeded: every row names some step, and the last of those that name a step
decides the policy under which the saga runs it. -/

namespace Missions

namespace Settings

/-- The policy that the last of the rows naming a step asks for. -/
def asked? (s : Settings) (step : String) : Option RetryPolicy :=
  (s.steps.filter fun row => normalize row.1 = step).getLast?.map fun row => row.2.policy

theorem last?_map_asking (rows : List (String × RetrySettings)) (step : String) :
    Overrides.last? (rows.map asking) step =
      (rows.filter fun row => normalize row.1 = step).getLast?.map fun row => row.2.policy := by
  induction rows with
  | nil => rfl
  | cons row rest ih =>
    rw [List.map_cons, last?_cons, ih, List.filter_cons]
    by_cases h : normalize row.1 = step
    · have hasking : step = (asking row).1 := h.symm
      rw [if_pos hasking, if_pos (decide_eq_true h), List.getLast?_cons]
      cases (rest.filter fun row => normalize row.1 = step).getLast? <;> rfl
    · have hasking : ¬ step = (asking row).1 := fun heq => h heq.symm
      rw [if_neg hasking, if_neg (by simpa using h), Option.or_none]

theorem validate_eq_error_iff {s : Settings} {known : List String} {e : CompletionError} :
    s.validate known = .error e ↔ ∃ before after name retry, s.steps = before ++ (name, retry) :: after ∧
      (∀ row ∈ before, normalize row.1 ∈ known) ∧ normalize name ∉ known ∧
      e = .unknownStep name (", ".intercalate known) := by
  rw [validate]
  constructor
  · intro h
    split at h
    · next name retry hfound =>
      obtain ⟨hrefused, before, after, hrows, hbefore⟩ := List.find?_eq_some_iff_append.1 hfound
      exact ⟨before, after, name, retry, hrows, by simpa using hbefore, by simpa using hrefused, by cases h; rfl⟩
    · cases h
  · rintro ⟨before, after, name, retry, hrows, hbefore, hrefused, rfl⟩
    have hfound : s.steps.find? (fun row => !known.contains (normalize row.1)) = some (name, retry) :=
      List.find?_eq_some_iff_append.2 ⟨by simpa using hrefused, before, after, hrows, by simpa using hbefore⟩
    rw [hfound]

end Settings

namespace Operation

open Settings

theorem new?_eq_error_iff {s : Settings} {e : CompletionError} :
    new? s = .error e ↔ s.validate stepNames = .error e := by
  rw [new?]
  split
  · next hvalid =>
    constructor
    · intro h
      cases h
    · intro h
      cases hvalid.symm.trans h
  · next hvalid => exact ⟨fun h => by cases h; exact hvalid, fun h => by cases hvalid.symm.trans h; rfl⟩

theorem exists_new?_iff {s : Settings} : (∃ o, new? s = .ok o) ↔ s.validate stepNames = .ok () := by
  constructor
  · rintro ⟨o, ho⟩
    exact new?_eq_ok_iff.1 ho ▸ o.valid
  · exact fun hvalid => ⟨⟨s, hvalid⟩, new?_eq_ok_iff.2 rfl⟩

variable (o : Operation)

theorem retry_of_mem {step : CompletionStep} (h : step ∈ o.saga.steps) : step.retry = .once := by
  rw [steps_saga] at h
  fin_cases h <;> rfl

theorem policyFor_eq_asked? {step : CompletionStep} (h : step ∈ o.saga.steps) :
    o.saga.policyFor step = (o.settings.asked? step.name).getD .once := by
  rw [policyFor_saga_eq, last?_map_asking, o.retry_of_mem h, asked?]

theorem exists_step_of_override {row : String × RetryPolicy} (h : row ∈ o.settings.retryOverrides) :
    ∃ step ∈ o.saga.steps, step.name = row.1 := by
  obtain ⟨row', hrow', rfl⟩ := List.mem_map.1 h
  have hknown : normalize row'.1 ∈ stepNames := validate_eq_ok_iff.1 o.valid row' hrow'
  have hnames : stepNames = o.saga.steps.map Step.name := by rw [steps_saga]; rfl
  rw [hnames] at hknown
  exact List.mem_map.1 hknown

/-- Settings are accepted exactly if every row, by its normalized name, names one of the six steps, and are otherwise
refused for the first row that does not. Every override of accepted settings is one of a step, and the saga runs each
step under what the last row asks for that names it, or once if there is none. Normalizing trims a name and leaves no
hyphens and no capital letters in it; a name that is so already it does not change. -/
theorem new?_heeds (s : Settings) :
    stepNames = ["load_mission_data", "grant_user_experience", "update_participant_progress",
      "complete_mission_instance", "grant_guild_experience", "create_feed_from_mission"] ∧
    ((∃ o, new? s = .ok o) ↔ ∀ row ∈ s.steps, normalize row.1 ∈ stepNames) ∧
    (∀ e, new? s = .error e ↔ ∃ (before after : List (String × RetrySettings)) (name : String) (retry : RetrySettings),
      s.steps = before ++ (name, retry) :: after ∧
      (∀ row ∈ before, normalize row.1 ∈ stepNames) ∧ normalize name ∉ stepNames ∧
      e = .unknownStep name (", ".intercalate stepNames)) ∧
    (∀ o, new? s = .ok o →
      o.saga.steps.map Step.name = stepNames ∧
      (∀ row ∈ s.retryOverrides, ∃ step ∈ o.saga.steps, step.name = row.1) ∧
      (∀ step ∈ o.saga.steps, o.saga.policyFor step = (s.asked? step.name).getD .once) ∧
      o.saga.run = Run.visit (fun step => (s.asked? step.name).getD .once) o.saga.steps) ∧
    ∀ name : String, Normal (normalize name) ∧ (Normal name → normalize name = name) ∧
      normalize (normalize name) = normalize name := by
  refine ⟨rfl, exists_new?_iff.trans validate_eq_ok_iff, fun e => new?_eq_error_iff.trans validate_eq_error_iff,
    fun o ho => ?_, fun name => ⟨normal_normalize name, normalize_of_normal, normalize_normalize name⟩⟩
  obtain rfl := new?_eq_ok_iff.1 ho
  have hpolicy : ∀ step ∈ o.saga.steps, o.saga.policyFor step = (o.settings.asked? step.name).getD .once :=
    fun step hstep => o.policyFor_eq_asked? hstep
  exact ⟨by rw [steps_saga]; rfl, fun row hrow => o.exists_step_of_override hrow, hpolicy, Run.visit_congr hpolicy⟩

/-- Settings with one row for a step, and two rows behind it for none. -/
def misspelled : Settings where
  steps := [(" Grant-User-Experience", ⟨2, 0⟩), ("Grant-User", ⟨5, 0⟩), ("sharing", ⟨1, 0⟩)]
  distinct := by decide

theorem new?_heeds_spelled :
    (∃ o : Operation, new? spelled = .ok o ∧ o.saga.policyFor UserReward.step = ⟨0, 0⟩ ∧
      o.saga.policyFor GuildReward.step = .once) ∧
    new? misspelled = .error (.unknownStep "Grant-User" (", ".intercalate stepNames)) := by
  obtain ⟨-, haccepts, -, hruns, -⟩ := new?_heeds spelled
  obtain ⟨o, ho⟩ := haccepts.2 (by decide +kernel)
  obtain ⟨-, -, hpolicy, -⟩ := hruns o ho
  refine ⟨⟨o, ho, (hpolicy _ (by simp [steps_saga])).trans (by decide +kernel),
    (hpolicy _ (by simp [steps_saga])).trans (by decide +kernel)⟩, ?_⟩
  refine ((new?_heeds misspelled).2.2.1 _).2
    ⟨[(" Grant-User-Experience", ⟨2, 0⟩)], [("sharing", ⟨1, 0⟩)], "Grant-User", ⟨5, 0⟩, rfl, ?_, ?_, rfl⟩
  · decide +kernel
  · decide +kernel

end Operation

end Missions
