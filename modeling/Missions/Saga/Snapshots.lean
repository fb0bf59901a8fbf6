import Missions.Table
import Missions.Text.Quoted

/-! Values kept under names, so that a step can undo itself later. A key carries the type of its value: a value comes
back only at the type at which it went in, while presence and removal go by the name alone. -/

namespace Missions

structure SnapshotKey {τ : Type} (t : τ) where
  name : String
  deriving DecidableEq, Repr

namespace SnapshotKey

def text {τ : Type} {t : τ} (k : SnapshotKey t) : String := "CompensationKey(" ++ Text.quoted k.name ++ ")"

end SnapshotKey

structure Snapshots {τ : Type} (El : τ → Type) where
  entries : Table String (Sigma El)

namespace Snapshots

variable {τ : Type} {El : τ → Type} {t : τ}

def empty : Snapshots El := ⟨∅⟩

instance : EmptyCollection (Snapshots El) := ⟨empty⟩

instance : Inhabited (Snapshots El) := ⟨empty⟩

/-- Keeps `v` under the key's name, in place of whatever was there. -/
def insert (s : Snapshots El) (k : SnapshotKey t) (v : El t) : Snapshots El := ⟨s.entries.insert k.name ⟨t, v⟩⟩

/-- The value under the key's name, if it was kept at the key's type. -/
def get? [DecidableEq τ] (s : Snapshots El) (k : SnapshotKey t) : Option (El t) :=
  match s.entries.get? k.name with
  | some ⟨t', v⟩ => if h : t' = t then some (h ▸ v) else none
  | none => none

def contains (s : Snapshots El) (k : SnapshotKey t) : Bool := s.entries.contains k.name

def erase (s : Snapshots El) (k : SnapshotKey t) : Snapshots El := ⟨s.entries.erase k.name⟩

/-- Drops the value under the key's name, and answers whether there was one. -/
def remove (s : Snapshots El) (k : SnapshotKey t) : Bool × Snapshots El := (s.contains k, s.erase k)

/-- A store of its own that takes every value over under its name. -/
def clone (s : Snapshots El) : Snapshots El := ⟨s.entries.rows.foldl (fun copy row => copy.insert row.1 row.2) ∅⟩

def size (s : Snapshots El) : Nat := s.entries.size

def isEmpty (s : Snapshots El) : Bool := s.entries.isEmpty

def keys (s : Snapshots El) : List String := s.entries.keys

def text (s : Snapshots El) : String :=
  "CompensationData \x7b keys: [" ++ ", ".intercalate (s.keys.map Text.quoted) ++ "] \x7d"

theorem get?_insert_self [DecidableEq τ] (s : Snapshots El) (k : SnapshotKey t) (v : El t) :
    (s.insert k v).get? k = some v := by
  simp [get?, insert]

theorem get?_insert_of_ne [DecidableEq τ] {t' : τ} (s : Snapshots El) {k : SnapshotKey t} {k' : SnapshotKey t'}
    (h : k'.name ≠ k.name) (v : El t) : (s.insert k v).get? k' = s.get? k' := by
  simp [get?, insert, Table.get?_insert_of_ne _ h]

end Snapshots

end Missions
