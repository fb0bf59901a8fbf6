import Mathlib.Data.Set.Card
import Missions.Proofs.Text.Bytes
import Missions.Saga.Snapshots

/-! Any number of stores, changed one after another, and copied onto each other. Each store has a past, the changes
that made it what it is: a copy takes over the past of its original, and from then on the two go their own ways. -/

namespace Missions

namespace Table

variable {κ ν : Type} [Ord κ] [Std.LawfulEqOrd κ]

theorem keys_nodup (t : Table κ ν) : t.keys.Nodup := by
  refine List.pairwise_map.2 (t.ascending.imp fun {a b} hlt heq => ?_)
  rw [heq] at hlt
  simp at hlt

variable [Std.TransOrd κ]

theorem get?_foldl_insert {rows : List (κ × ν)} (h : rows.Pairwise fun a b => compare a.1 b.1 = .lt) (t : Table κ ν)
    (k : κ) : (rows.foldl (fun t row => t.insert row.1 row.2) t).get? k = (lookup k rows).or (t.get? k) := by
  induction rows generalizing t with
  | nil => simp [lookup]
  | cons row rest ih =>
    have hrest := List.pairwise_cons.1 h
    rw [List.foldl_cons, ih hrest.2, lookup]
    split
    · next hk =>
      obtain rfl := Std.LawfulEqCmp.compare_eq_iff_eq.1 hk
      simp [lookup_eq_none_of_lt hrest.1]
    · next hk =>
      have hne : k ≠ row.1 := fun heq => hk (Std.LawfulEqCmp.compare_eq_iff_eq.2 heq)
      rw [get?_insert_of_ne t hne]

theorem foldl_insert_rows (t : Table κ ν) : t.rows.foldl (fun t row => t.insert row.1 row.2) ∅ = t := by
  apply ext_get?
  intro k
  rw [get?_foldl_insert t.ascending, get?_empty, Option.or_none, get?]

end Table

namespace Snapshots

variable {τ : Type} {El : τ → Type} {ι : Type}

inductive Change (El : τ → Type) where
  | insert {t : τ} (key : SnapshotKey t) (v : El t)
  | remove {t : τ} (key : SnapshotKey t)

namespace Change

def name : Change El → String
  | insert key _ => key.name
  | remove key => key.name

def perform (s : Snapshots El) : Change El → Snapshots El
  | insert key v => s.insert key v
  | remove key => (s.remove key).2

end Change

/-- A change of one of several stores, or a copy of one over another. -/
inductive Move (El : τ → Type) (ι : Type) where
  | change (store : ι) (c : Change El)
  | clone (original copy : ι)

namespace Move

def target : Move El ι → ι
  | change store _ => store
  | clone _ copy => copy

variable [DecidableEq ι]

def perform (stores : ι → Snapshots El) : Move El ι → ι → Snapshots El
  | change store c => Function.update stores store (c.perform (stores store))
  | clone original copy => Function.update stores copy (stores original).clone

/-- Adds a change to the past of its store; a copy has the past of its original. -/
def record (pasts : ι → List (Change El)) : Move El ι → ι → List (Change El)
  | change store c => Function.update pasts store (pasts store ++ [c])
  | clone original copy => Function.update pasts copy (pasts original)

end Move

/-! ### Specification -/

section

variable [DecidableEq ι]

/-- The stores after a history in which they were empty at first. -/
def after (history : List (Move El ι)) : ι → Snapshots El := history.foldl Move.perform fun _ => ∅

def past (history : List (Move El ι)) : ι → List (Change El) := history.foldl Move.record fun _ => []

end

/-- A value was put in under a key, and nothing was put in or removed under its name since. -/
def Kept {t : τ} (changes : List (Change El)) (key : SnapshotKey t) (v : El t) : Prop :=
  ∃ before later, changes = before ++ .insert key v :: later ∧ ∀ c ∈ later, c.name ≠ key.name

def Present (changes : List (Change El)) (name : String) : Prop :=
  ∃ (t : τ) (v : El t), Kept changes (⟨name⟩ : SnapshotKey t) v

/-- A store shows to every observer what its past tells. -/
structure Shows [DecidableEq τ] (s : Snapshots El) (changes : List (Change El)) : Prop where
  get? : ∀ {t : τ} (key : SnapshotKey t) (v : El t), s.get? key = some v ↔ Kept changes key v
  contains : ∀ {t : τ} (key : SnapshotKey t), s.contains key = true ↔ Present changes key.name
  remove : ∀ {t : τ} (key : SnapshotKey t), (s.remove key).1 = true ↔ Present changes key.name
  size : s.size = {name | Present changes name}.ncard
  isEmpty : s.isEmpty = true ↔ s.size = 0
  keys : ∀ name, name ∈ s.keys ↔ Present changes name
  /-- The names stand once each, in ascending order of their bytes. -/
  ascending : s.keys.Pairwise fun a b => Text.bytes a < Text.bytes b

/-! ### One store -/

theorem clone_eq (s : Snapshots El) : s.clone = s := by
  rw [clone, Table.foldl_insert_rows]

theorem contains_iff_mem_keys {t : τ} (s : Snapshots El) (key : SnapshotKey t) :
    s.contains key = true ↔ key.name ∈ s.keys :=
  s.entries.contains_iff_mem_keys

theorem size_eq_ncard (s : Snapshots El) : s.size = {name | name ∈ s.keys}.ncard := by
  have hnodup : s.keys.Nodup := s.entries.keys_nodup
  have hset : {name | name ∈ s.keys} = (s.keys.toFinset : Set String) := by simp
  rw [hset, Set.ncard_coe_finset, List.toFinset_card_of_nodup hnodup, keys, Table.keys, List.length_map]
  rfl

theorem isEmpty_iff_size (s : Snapshots El) : s.isEmpty = true ↔ s.size = 0 := by
  rw [isEmpty, Table.isEmpty, List.isEmpty_iff_length_eq_zero]
  rfl

theorem keys_ascending (s : Snapshots El) : s.keys.Pairwise fun a b => Text.bytes a < Text.bytes b := by
  refine List.pairwise_map.2 (s.entries.ascending.imp fun {a b} hlt => ?_)
  exact Text.bytes_lt_iff.2 (compareOfLessAndEq_eq_lt.1 hlt)

def ofPast (changes : List (Change El)) : Snapshots El := changes.foldl Change.perform ∅

theorem ofPast_append (changes : List (Change El)) (c : Change El) :
    ofPast (changes ++ [c]) = c.perform (ofPast changes) :=
  List.foldl_concat _ _ _ _

theorem kept_append {t : τ} {changes : List (Change El)} {c : Change El} {key : SnapshotKey t} {v : El t} :
    Kept (changes ++ [c]) key v ↔ c = .insert key v ∨ c.name ≠ key.name ∧ Kept changes key v := by
  constructor
  · rintro ⟨before, later, heq, hlater⟩
    rcases later.eq_nil_or_concat with rfl | ⟨later, last, rfl⟩
    · exact .inl (List.cons.inj (List.append_inj' heq rfl).2).1
    · rw [List.concat_eq_append, ← List.cons_append, ← List.append_assoc] at heq
      rw [List.concat_eq_append] at hlater
      obtain ⟨rfl, hlast⟩ := List.append_inj' heq rfl
      obtain rfl := (List.cons.inj hlast).1
      exact .inr ⟨hlater _ (by simp), before, later, rfl, fun c' hc' => hlater c' (List.mem_append_left _ hc')⟩
  · rintro (rfl | ⟨hname, before, later, rfl, hlater⟩)
    · exact ⟨changes, [], rfl, by simp⟩
    · refine ⟨before, later ++ [c], by simp, fun c' hc' => ?_⟩
      rcases List.mem_append.1 hc' with hc' | hc'
      · exact hlater c' hc'
      · rwa [List.mem_singleton.1 hc']

section

variable [DecidableEq τ]

theorem get?_insert_eq_some_iff {t t' : τ} (s : Snapshots El) {key : SnapshotKey t} {key' : SnapshotKey t'}
    (h : key'.name = key.name) {v : El t} {v' : El t'} :
    (s.insert key' v').get? key = some v ↔ Change.insert key' v' = .insert key v := by
  obtain ⟨name⟩ := key
  obtain ⟨name'⟩ := key'
  obtain rfl : name' = name := h
  by_cases ht : t' = t
  · subst ht
    rw [get?_insert_self]
    simp
  · simp [get?, insert, ht]

theorem get?_erase_of_eq {t t' : τ} (s : Snapshots El) {key : SnapshotKey t} {key' : SnapshotKey t'}
    (h : key'.name = key.name) : (s.erase key').get? key = none := by
  simp [get?, erase, h]

theorem get?_erase_of_ne {t t' : τ} (s : Snapshots El) {key : SnapshotKey t} {key' : SnapshotKey t'}
    (h : key'.name ≠ key.name) : (s.erase key').get? key = s.get? key := by
  simp [get?, erase, Table.get?_erase_of_ne _ h.symm]

theorem get?_perform {t : τ} (s : Snapshots El) (c : Change El) (key : SnapshotKey t) (v : El t) :
    (c.perform s).get? key = some v ↔ c = .insert key v ∨ c.name ≠ key.name ∧ s.get? key = some v := by
  by_cases h : c.name = key.name
  · cases c with
    | insert key' v' =>
      rw [Change.perform, get?_insert_eq_some_iff s h]
      simp [h]
    | remove key' =>
      rw [Change.perform, remove, get?_erase_of_eq s h]
      simp [h]
  · cases c with
    | insert key' v' =>
      have hc : Change.insert key' v' ≠ .insert key v := fun heq => h (congrArg Change.name heq)
      rw [Change.perform, get?_insert_of_ne s (Ne.symm h)]
      simp [h, hc]
    | remove key' =>
      rw [Change.perform, remove, get?_erase_of_ne s h]
      simp [h]

theorem get?_ofPast {t : τ} (changes : List (Change El)) (key : SnapshotKey t) (v : El t) :
    (ofPast changes).get? key = some v ↔ Kept changes key v := by
  induction changes using List.reverseRecOn with
  | nil =>
    have hnone : (∅ : Snapshots El).get? key = none := rfl
    simp [ofPast, Kept, hnone]
  | append_singleton changes c ih => rw [ofPast_append, get?_perform, kept_append, ih]

theorem get?_eq_some_iff_entries {t : τ} (s : Snapshots El) (key : SnapshotKey t) (v : El t) :
    s.get? key = some v ↔ s.entries.get? key.name = some ⟨t, v⟩ := by
  rw [get?]
  split
  · next t' v' hentry =>
    rw [hentry]
    by_cases ht : t' = t
    · subst ht
      simp
    · simp [ht]
  · next hentry => simp [hentry]

theorem mem_keys_iff (s : Snapshots El) (name : String) :
    name ∈ s.keys ↔ ∃ (t : τ) (v : El t), s.get? (⟨name⟩ : SnapshotKey t) = some v := by
  simp only [get?_eq_some_iff_entries]
  rw [keys, Table.mem_keys_iff]
  exact Sigma.exists

theorem mem_keys_ofPast (changes : List (Change El)) (name : String) :
    name ∈ (ofPast changes).keys ↔ Present changes name := by
  simp only [mem_keys_iff, get?_ofPast, Present]

theorem ofPast_shows (changes : List (Change El)) : Shows (ofPast changes) changes where
  get? := get?_ofPast changes
  contains key := (contains_iff_mem_keys _ key).trans (mem_keys_ofPast changes key.name)
  remove key := (contains_iff_mem_keys _ key).trans (mem_keys_ofPast changes key.name)
  size := by simp only [size_eq_ncard, mem_keys_ofPast]
  isEmpty := isEmpty_iff_size _
  keys := mem_keys_ofPast changes
  ascending := keys_ascending _

end

/-! ### Several stores -/

section

variable [DecidableEq ι]

theorem perform_ofPast (pasts : ι → List (Change El)) (m : Move El ι) :
    (m.perform fun i => ofPast (pasts i)) = fun i => ofPast (m.record pasts i) := by
  funext i
  cases m with
  | change store c =>
    by_cases h : i = store
    · subst h
      simp [Move.perform, Move.record, ofPast_append]
    · simp [Move.perform, Move.record, h]
  | clone original copy =>
    by_cases h : i = copy
    · subst h
      simp [Move.perform, Move.record, clone_eq]
    · simp [Move.perform, Move.record, h]

theorem after_append (history : List (Move El ι)) (m : Move El ι) :
    after (history ++ [m]) = m.perform (after history) :=
  List.foldl_concat _ _ _ _

theorem past_append (history : List (Move El ι)) (m : Move El ι) : past (history ++ [m]) = m.record (past history) :=
  List.foldl_concat _ _ _ _

theorem after_eq_ofPast (history : List (Move El ι)) (i : ι) : after history i = ofPast (past history i) := by
  suffices h : after history = fun i => ofPast (past history i) by rw [h]
  induction history using List.reverseRecOn with
  | nil => rfl
  | append_singleton history m ih => rw [after_append, past_append, ih, perform_ofPast]

theorem perform_of_ne (stores : ι → Snapshots El) {m : Move El ι} {i : ι} (h : m.target ≠ i) :
    m.perform stores i = stores i := by
  cases m with
  | change store c => exact Function.update_of_ne h.symm _ _
  | clone original copy => exact Function.update_of_ne h.symm _ _

theorem after_append_of_ne (history : List (Move El ι)) {later : List (Move El ι)} {i : ι}
    (h : ∀ m ∈ later, m.target ≠ i) : after (history ++ later) i = after history i := by
  induction later using List.reverseRecOn with
  | nil => rw [List.append_nil]
  | append_singleton later m ih =>
    have hlater : ∀ m' ∈ later, m'.target ≠ i := fun m' hm' => h m' (List.mem_append_left _ hm')
    rw [← List.append_assoc, after_append, perform_of_ne _ (h m (by simp)), ih hlater]

theorem after_clone (history : List (Move El ι)) (original copy : ι) :
    after (history ++ [.clone original copy]) copy = after history original := by
  rw [after_append, Move.perform, Function.update_self, clone_eq]

variable [DecidableEq τ]

/-- Every store shows what its own past tells, whatever happens to the others; and a copy stays as its original was when
it was made, whatever happens to the original, until it is written itself. -/
theorem history_shows (history : List (Move El ι)) (i : ι) :
    Shows (after history i) (past history i) ∧
      (∀ copy later, (∀ m ∈ later, m.target ≠ copy) →
        after (history ++ .clone i copy :: later) copy = after history i) ∧
      ∀ later, (∀ m ∈ later, m.target ≠ i) → after (history ++ later) i = after history i := by
  refine ⟨?_, fun copy later hlater => ?_, fun later hlater => after_append_of_ne history hlater⟩
  · rw [after_eq_ofPast]
    exact ofPast_shows _
  · rw [List.append_cons, after_append_of_ne _ hlater, after_clone]

end

@[reducible] def Plain (text : Bool) : Type := cond text String Int

def opened : List (Move Plain (Fin 2)) :=
  [.change 0 (.insert (⟨"STATUS"⟩ : SnapshotKey true) "OPEN"),
    .change 0 (.insert (⟨"EXP"⟩ : SnapshotKey false) (120 : Int))]

/-- The status becomes a number, and the experience goes, by a key of another type. -/
def renumbered : List (Move Plain (Fin 2)) :=
  [.change 0 (.insert (⟨"STATUS"⟩ : SnapshotKey false) (3 : Int)), .change 0 (.remove (⟨"EXP"⟩ : SnapshotKey true))]

theorem history_shows_renumbered :
    Kept (past (opened ++ .clone 0 1 :: renumbered) 0) (⟨"STATUS"⟩ : SnapshotKey false) (3 : Int) ∧
      {name | Present (past (opened ++ .clone 0 1 :: renumbered) 0) name}.ncard = 1 ∧
      (after (opened ++ .clone 0 1 :: renumbered) 1).get? (⟨"STATUS"⟩ : SnapshotKey true) = some "OPEN" ∧
      after (opened ++ [.clone 0 1, .change 1 (.remove (⟨"EXP"⟩ : SnapshotKey true))]) 0 = after opened 0 := by
  have hshows := (history_shows (opened ++ .clone 0 1 :: renumbered) 0).1
  obtain ⟨-, hcopy, hframe⟩ := history_shows opened 0
  refine ⟨(hshows.get? _ _).1 rfl, hshows.size.symm, ?_, hframe _ (by decide)⟩
  rw [hcopy 1 renumbered (by decide)]
  rfl

end Snapshots

end Missions
