/-! Rows under distinct keys in ascending order. Lookups decide everything: each operation is described by the lookups
that it leaves, and two tables with the same lookups are equal. -/

namespace Missions

structure Table (κ ν : Type) [Ord κ] where
  rows : List (κ × ν)
  ascending : rows.Pairwise fun a b => compare a.1 b.1 = .lt

namespace Table

variable {κ ν : Type} [Ord κ]

def lookup (k : κ) : List (κ × ν) → Option ν
  | [] => none
  | (k', v) :: rest => if compare k k' = .eq then some v else lookup k rest

/-- Places a row before the first greater key, over a row with an equal one. -/
def place (k : κ) (v : ν) : List (κ × ν) → List (κ × ν)
  | [] => [(k, v)]
  | (k', v') :: rest =>
    match compare k k' with
    | .lt => (k, v) :: (k', v') :: rest
    | .eq => (k, v) :: rest
    | .gt => (k', v') :: place k v rest

theorem mem_place {k : κ} {v : ν} {rows : List (κ × ν)} {row : κ × ν} (h : row ∈ place k v rows) :
    row = (k, v) ∨ row ∈ rows := by
  induction rows with
  | nil => simpa [place] using h
  | cons first rest ih =>
    obtain ⟨k', v'⟩ := first
    rw [place] at h
    split at h <;> simp only [List.mem_cons] at h ⊢ <;> grind

theorem ascending_place [Std.TransOrd κ] [Std.LawfulEqOrd κ] (k : κ) (v : ν) {rows : List (κ × ν)}
    (h : rows.Pairwise fun a b => compare a.1 b.1 = .lt) :
    (place k v rows).Pairwise fun a b => compare a.1 b.1 = .lt := by
  induction rows with
  | nil => simp [place]
  | cons first rest ih =>
    obtain ⟨k', v'⟩ := first
    have hrest := List.pairwise_cons.1 h
    rw [place]
    split
    · next hk =>
      refine List.pairwise_cons.2 ⟨fun row hrow => ?_, h⟩
      rcases List.mem_cons.1 hrow with rfl | hrow
      · exact hk
      · exact Std.TransCmp.lt_trans hk (hrest.1 row hrow)
    · next hk =>
      obtain rfl := Std.LawfulEqCmp.compare_eq_iff_eq.1 hk
      exact List.pairwise_cons.2 ⟨hrest.1, hrest.2⟩
    · next hk =>
      refine List.pairwise_cons.2 ⟨fun row hrow => ?_, ih hrest.2⟩
      rcases mem_place hrow with rfl | hrow
      · exact Std.OrientedCmp.gt_iff_lt.1 hk
      · exact hrest.1 row hrow

def empty : Table κ ν := ⟨[], List.Pairwise.nil⟩

instance : EmptyCollection (Table κ ν) := ⟨empty⟩

instance : Inhabited (Table κ ν) := ⟨empty⟩

def get? (t : Table κ ν) (k : κ) : Option ν := lookup k t.rows

def contains (t : Table κ ν) (k : κ) : Bool := (t.get? k).isSome

def insert [Std.TransOrd κ] [Std.LawfulEqOrd κ] (t : Table κ ν) (k : κ) (v : ν) : Table κ ν :=
  ⟨place k v t.rows, ascending_place k v t.ascending⟩

def erase (t : Table κ ν) (k : κ) : Table κ ν :=
  ⟨t.rows.filter fun row => compare k row.1 != .eq, t.ascending.filter _⟩

def modify [Std.TransOrd κ] [Std.LawfulEqOrd κ] (t : Table κ ν) (k : κ) (f : ν → ν) : Table κ ν :=
  match t.get? k with
  | some v => t.insert k (f v)
  | none => t

def keys (t : Table κ ν) : List κ := t.rows.map (·.1)

def values (t : Table κ ν) : List ν := t.rows.map (·.2)

def size (t : Table κ ν) : Nat := t.rows.length

def isEmpty (t : Table κ ν) : Bool := t.rows.isEmpty

/-! ### Lookups -/

@[simp] theorem get?_empty (k : κ) : (∅ : Table κ ν).get? k = none := rfl

theorem lookup_eq_none_of_lt {k : κ} {rows : List (κ × ν)} (h : ∀ row ∈ rows, compare k row.1 = .lt) :
    lookup k rows = none := by
  induction rows with
  | nil => rfl
  | cons row rest ih =>
    have hrow : compare k row.1 = .lt := h row (by simp)
    simp [lookup, hrow, ih fun row' hmem => h row' (by simp [hmem])]

variable [Std.LawfulEqOrd κ]

theorem lookup_place_self (k : κ) (v : ν) (rows : List (κ × ν)) : lookup k (place k v rows) = some v := by
  induction rows with
  | nil => simp [place, lookup]
  | cons first rest ih =>
    obtain ⟨k', v'⟩ := first
    rw [place]
    split <;> simp_all [lookup]

theorem lookup_place_of_ne {k k' : κ} (hne : k' ≠ k) (v : ν) (rows : List (κ × ν)) :
    lookup k' (place k v rows) = lookup k' rows := by
  induction rows with
  | nil => simp [place, lookup, Std.LawfulEqCmp.compare_eq_iff_eq, hne]
  | cons first rest ih =>
    obtain ⟨k'', v''⟩ := first
    rw [place]
    split <;> simp_all [lookup, Std.LawfulEqCmp.compare_eq_iff_eq]

@[simp] theorem get?_insert_self [Std.TransOrd κ] (t : Table κ ν) (k : κ) (v : ν) :
    (t.insert k v).get? k = some v :=
  lookup_place_self k v t.rows

theorem get?_insert_of_ne [Std.TransOrd κ] (t : Table κ ν) {k k' : κ} (h : k' ≠ k) (v : ν) :
    (t.insert k v).get? k' = t.get? k' :=
  lookup_place_of_ne h v t.rows

theorem lookup_filter_self (k : κ) (rows : List (κ × ν)) :
    lookup k (rows.filter fun row => compare k row.1 != .eq) = none := by
  induction rows with
  | nil => rfl
  | cons row rest ih =>
    rw [List.filter_cons]
    split
    · next h => simp_all [lookup]
    · exact ih

theorem lookup_filter_of_ne {k k' : κ} (hne : k' ≠ k) (rows : List (κ × ν)) :
    lookup k' (rows.filter fun row => compare k row.1 != .eq) = lookup k' rows := by
  induction rows with
  | nil => rfl
  | cons row rest ih =>
    rw [List.filter_cons]
    split
    · simp [lookup, ih]
    · next h =>
      have hk : k = row.1 := by simpa using h
      have hk' : compare k' row.1 ≠ .eq := fun h => hne ((Std.LawfulEqCmp.compare_eq_iff_eq.1 h).trans hk.symm)
      simp [lookup, ih, hk']

@[simp] theorem get?_erase_self (t : Table κ ν) (k : κ) : (t.erase k).get? k = none :=
  lookup_filter_self k t.rows

theorem get?_erase_of_ne (t : Table κ ν) {k k' : κ} (h : k' ≠ k) : (t.erase k).get? k' = t.get? k' :=
  lookup_filter_of_ne h t.rows

theorem lookup_eq_some_iff {k : κ} {v : ν} {rows : List (κ × ν)}
    (h : rows.Pairwise fun a b => compare a.1 b.1 = .lt) : lookup k rows = some v ↔ (k, v) ∈ rows := by
  induction rows with
  | nil => simp [lookup]
  | cons row rest ih =>
    obtain ⟨k', v'⟩ := row
    have hrest := List.pairwise_cons.1 h
    rw [lookup]
    split
    · next hk =>
      obtain rfl := Std.LawfulEqCmp.compare_eq_iff_eq.1 hk
      have hnot : (k, v) ∉ rest := fun hmem => by simpa [hk] using hrest.1 _ hmem
      simp [hnot, eq_comm]
    · next hk =>
      have hne : k ≠ k' := fun heq => hk (Std.LawfulEqCmp.compare_eq_iff_eq.2 heq)
      simp [hne, ih hrest.2]

theorem get?_eq_some_iff (t : Table κ ν) {k : κ} {v : ν} : t.get? k = some v ↔ (k, v) ∈ t.rows :=
  lookup_eq_some_iff t.ascending

theorem mem_keys_iff (t : Table κ ν) {k : κ} : k ∈ t.keys ↔ ∃ v, t.get? k = some v := by
  simp [keys, get?_eq_some_iff]

theorem contains_iff_mem_keys (t : Table κ ν) {k : κ} : t.contains k ↔ k ∈ t.keys := by
  rw [contains, Option.isSome_iff_exists, mem_keys_iff]

theorem rows_ext [Std.TransOrd κ] {rows rows' : List (κ × ν)}
    (h : rows.Pairwise fun a b => compare a.1 b.1 = .lt) (h' : rows'.Pairwise fun a b => compare a.1 b.1 = .lt)
    (heq : ∀ k, lookup k rows = lookup k rows') : rows = rows' := by
  induction rows generalizing rows' with
  | nil =>
    cases rows' with
    | nil => rfl
    | cons row rest => simpa [lookup] using heq row.1
  | cons row rest ih =>
    cases rows' with
    | nil => simpa [lookup] using heq row.1
    | cons row' rest' =>
      have hrest := List.pairwise_cons.1 h
      have hrest' := List.pairwise_cons.1 h'
      have hhead : row = row' := by
        have hmem : row ∈ row' :: rest' := (lookup_eq_some_iff h').1 (heq row.1 ▸ by simp [lookup])
        have hmem' : row' ∈ row :: rest := (lookup_eq_some_iff h).1 (heq row'.1 ▸ by simp [lookup])
        rcases List.mem_cons.1 hmem with rfl | hmem
        · rfl
        · rcases List.mem_cons.1 hmem' with rfl | hmem'
          · rfl
          · simpa using Std.TransCmp.lt_trans (hrest'.1 row hmem) (hrest.1 row' hmem')
      subst hhead
      congr 1
      refine ih hrest.2 hrest'.2 fun k => ?_
      by_cases hk : k = row.1
      · subst hk
        rw [lookup_eq_none_of_lt hrest.1, lookup_eq_none_of_lt hrest'.1]
      · simpa [lookup, hk] using heq k

theorem ext_get? [Std.TransOrd κ] {t t' : Table κ ν} (h : ∀ k, t.get? k = t'.get? k) : t = t' := by
  obtain ⟨rows, ha⟩ := t
  obtain ⟨rows', ha'⟩ := t'
  obtain rfl := rows_ext ha ha' h
  rfl

end Table

end Missions
