import Missions.Ledger.Books

namespace Missions

namespace Table

variable {κ ν : Type} [Ord κ]

theorem exists_find?_rows {t : Table κ ν} {p : ν → Bool} {v : ν} (h : t.values.find? p = some v) :
    ∃ k, t.rows.find? (fun row => p row.2) = some (k, v) := by
  rw [values, List.find?_map] at h
  obtain ⟨⟨k, v'⟩, hrow, rfl⟩ := Option.map_eq_some_iff.1 h
  exact ⟨k, hrow⟩

theorem key_le_of_find? {rows : List (κ × ν)} (hrows : rows.Pairwise fun a b => compare a.1 b.1 = .lt) {p : ν → Bool}
    {k : κ} {v : ν} (h : rows.find? (fun row => p row.2) = some (k, v)) {k' : κ} {v' : ν} (hmem : (k', v') ∈ rows)
    (hv' : p v' = true) : k' = k ∨ compare k k' = .lt := by
  induction rows with
  | nil => simp at hmem
  | cons row rest ih =>
    have hrest := List.pairwise_cons.1 hrows
    rw [List.find?_cons] at h
    split at h
    · obtain rfl := Option.some.inj h
      rcases List.mem_cons.1 hmem with hrow | hmem
      · exact .inl (congrArg Prod.fst hrow)
      · exact .inr (hrest.1 _ hmem)
    · next hrow =>
      rcases List.mem_cons.1 hmem with rfl | hmem
      · simp [hv'] at hrow
      · exact ih hrest.2 h hmem

variable [Std.LawfulEqOrd κ]

theorem mem_values_iff {t : Table κ ν} {v : ν} : v ∈ t.values ↔ ∃ k, t.get? k = some v := by
  simp [values, get?_eq_some_iff]

variable [Std.TransOrd κ]

theorem get?_insert [DecidableEq κ] (t : Table κ ν) (k k' : κ) (v : ν) :
    (t.insert k v).get? k' = if k' = k then some v else t.get? k' := by
  split
  · next h => rw [h, get?_insert_self]
  · next h => exact get?_insert_of_ne t h v

theorem insert_insert (t : Table κ ν) (k : κ) (v w : ν) : (t.insert k v).insert k w = t.insert k w := by
  classical
  apply ext_get?
  intro k'
  simp only [get?_insert]
  split <;> rfl

theorem insert_eq_self {t : Table κ ν} {k : κ} {v : ν} (h : t.get? k = some v) : t.insert k v = t := by
  classical
  apply ext_get?
  intro k'
  rw [get?_insert]
  split
  · next hk => rw [hk, h]
  · rfl

theorem find?_place {rows : List (κ × ν)} (hrows : rows.Pairwise fun a b => compare a.1 b.1 = .lt) {p : ν → Bool}
    {k : κ} {v w : ν} (h : rows.find? (fun row => p row.2) = some (k, v)) (hw : p w = true) :
    (place k w rows).find? (fun row => p row.2) = some (k, w) := by
  induction rows with
  | nil => simp at h
  | cons row rest ih =>
    obtain ⟨k', v'⟩ := row
    have hrest := List.pairwise_cons.1 hrows
    rw [List.find?_cons] at h
    split at h
    · obtain ⟨rfl, rfl⟩ : k' = k ∧ v' = v := by simpa using h
      simp [place, hw]
    · next hv' =>
      have hlt : compare k' k = .lt := hrest.1 (k, v) (List.mem_of_find?_eq_some h)
      have hgt : compare k k' = .gt := Std.OrientedCmp.gt_iff_lt.2 hlt
      simp [place, hgt, hv', ih hrest.2 h]

theorem find?_values_insert {t : Table κ ν} {p : ν → Bool} {k : κ} {v w : ν}
    (h : t.rows.find? (fun row => p row.2) = some (k, v)) (hw : p w = true) :
    (t.insert k w).values.find? p = some w := by
  have hplace := find?_place t.ascending h hw
  rw [values, List.find?_map]
  exact congrArg (Option.map Prod.snd) hplace

theorem own_key_insert {key : ν → κ} {t : Table κ ν} (h : ∀ k v, t.get? k = some v → key v = k) (w : ν) :
    ∀ k v, (t.insert (key w) w).get? k = some v → key v = k := by
  classical
  intro k v hv
  rw [get?_insert] at hv
  split at hv
  · next hk =>
    obtain rfl := Option.some.inj hv
    exact hk.symm
  · exact h k v hv

end Table

namespace Books

/-- Every record stands under its own number. -/
structure Keyed (books : Books) : Prop where
  missions : ∀ id m, books.missions.get? id = some m → m.id = id
  participants : ∀ id p, books.participants.get? id = some p → p.id = id
  executions : ∀ id x, books.executions.get? id = some x → x.id = id
  instances : ∀ id i, books.instances.get? id = some i → i.id = id

variable {books : Books}

theorem participantOf_eq_some (hkeyed : books.Keyed) {mission : Int} {user : String} {p : Participant}
    (h : books.participantOf mission user = some p) :
    books.participants.get? p.id = some p ∧ p.mission = mission ∧ p.user = user := by
  obtain ⟨id, hid⟩ := Table.mem_values_iff.1 (List.mem_of_find?_eq_some h)
  have hp := List.find?_some h
  simp only [Bool.and_eq_true, beq_iff_eq] at hp
  obtain rfl := hkeyed.participants id p hid
  exact ⟨hid, hp⟩

theorem executionInProgress_eq_some (hkeyed : books.Keyed) {participant : Int} {x : Execution}
    (h : books.executionInProgress participant = some x) :
    books.executions.get? x.id = some x ∧ x.participant = participant ∧ x.status = .inProgress := by
  obtain ⟨id, hid⟩ := Table.mem_values_iff.1 (List.mem_of_find?_eq_some h)
  have hx := List.find?_some h
  simp only [Bool.and_eq_true, beq_iff_eq] at hx
  obtain rfl := hkeyed.executions id x hid
  exact ⟨hid, hx⟩

theorem executionInProgress_le (hkeyed : books.Keyed) {participant : Int} {x y : Execution}
    (h : books.executionInProgress participant = some x) (hy : books.executions.get? y.id = some y)
    (hparticipant : y.participant = participant) (hstatus : y.status = .inProgress) : x.id ≤ y.id := by
  obtain ⟨id, hrow⟩ := Table.exists_find?_rows h
  have hx := hkeyed.executions id x ((Table.get?_eq_some_iff _).2 (List.mem_of_find?_eq_some hrow))
  have hkind : (y.participant == participant && y.status == .inProgress) = true := by simp [hparticipant, hstatus]
  rw [hx]
  rcases Table.key_le_of_find? books.executions.ascending
    (p := fun x => x.participant == participant && x.status == .inProgress) hrow ((Table.get?_eq_some_iff _).1 hy)
    hkind with hkey | hkey
  · exact Int.le_of_eq hkey.symm
  · exact Int.le_of_lt (Int.compare_eq_lt.1 hkey)

theorem participantOf_putParticipant (hkeyed : books.Keyed) {mission : Int} {user : String} {p q : Participant}
    (h : books.participantOf mission user = some p) (hid : q.id = p.id) (hmission : q.mission = p.mission)
    (huser : q.user = p.user) : (books.putParticipant q).participantOf mission user = some q := by
  obtain ⟨hp, rfl, rfl⟩ := participantOf_eq_some hkeyed h
  obtain ⟨id, hrow⟩ := Table.exists_find?_rows h
  have hkey := hkeyed.participants id p ((Table.get?_eq_some_iff _).2 (List.mem_of_find?_eq_some hrow))
  rw [← hkey, ← hid] at hrow
  exact Table.find?_values_insert hrow (by simp [hmission, huser])

theorem putParticipant_eq_self {p : Participant} (h : books.participants.get? p.id = some p) :
    books.putParticipant p = books := by
  rw [putParticipant, Table.insert_eq_self h]

theorem putExecution_putExecution {x y : Execution} (h : books.executions.get? x.id = some x) (hid : y.id = x.id) :
    (books.putExecution y).putExecution x = books := by
  simp only [putExecution, hid, Table.insert_insert, Table.insert_eq_self h]

theorem putParticipant_putParticipant {p q : Participant} (h : books.participants.get? p.id = some p)
    (hid : q.id = p.id) : (books.putParticipant q).putParticipant p = books := by
  simp only [putParticipant, hid, Table.insert_insert, Table.insert_eq_self h]

theorem putInstance_putInstance {i j : Instance} (h : books.instances.get? i.id = some i) (hid : j.id = i.id) :
    (books.putInstance j).putInstance i = books := by
  simp only [putInstance, hid, Table.insert_insert, Table.insert_eq_self h]

/-! ### Records under their own numbers -/

theorem Keyed.empty : ({} : Books).Keyed := by
  constructor <;> intro id record h <;> simp [Table.get?_empty] at h

theorem Keyed.putMission (h : books.Keyed) (m : Mission) : (books.putMission m).Keyed :=
  { h with missions := Table.own_key_insert h.missions m }

theorem Keyed.putParticipant (h : books.Keyed) (p : Participant) : (books.putParticipant p).Keyed :=
  { h with participants := Table.own_key_insert h.participants p }

theorem Keyed.putExecution (h : books.Keyed) (x : Execution) : (books.putExecution x).Keyed :=
  { h with executions := Table.own_key_insert h.executions x }

theorem Keyed.putInstance (h : books.Keyed) (i : Instance) : (books.putInstance i).Keyed :=
  { h with instances := Table.own_key_insert h.instances i }

theorem Keyed.perform (h : books.Keyed) (c : Call) : (books.perform c).2.Keyed := by
  cases c with
  | saveParticipant p => exact h.putParticipant p
  | saveExecution x => exact h.putExecution x
  | saveInstance i => exact h.putInstance i
  | completeExecution id =>
    simp only [Books.perform, Books.completeExecution]
    split
    · split
      · exact h.putExecution _
      · exact h
    · exact h
  | completeInstance id =>
    simp only [Books.perform, Books.completeInstance]
    split
    · split
      · exact h.putInstance _
      · exact h
    · exact h
  | setShared target shared => cases target <;> exact { h with }
  | _ => exact { h with }

end Books

end Missions
