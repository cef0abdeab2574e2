import Mathlib.Data.List.Nodup

/-! A relational table with a serial id and one unique key, filled by insertions that
skip a row whose key is taken. A skipped row still consumes an id, and a rollback
gives back the rows but not the ids. -/

namespace Library

structure Stored (Data : Type) where
  id : Nat
  data : Data
  deriving DecidableEq

structure Table {Data Key : Type} (key : Data → Key) where
  rows : List (Stored Data)
  next : Nat
  fresh : ∀ row ∈ rows, row.id < next
  ids : (rows.map Stored.id).Nodup
  keys : (rows.map fun row => key row.data).Nodup

namespace Table
variable {Data Key : Type} {key : Data → Key}

def empty : Table key where
  rows := []
  next := 1
  fresh := by simp
  ids := List.nodup_nil
  keys := List.nodup_nil

/-- The key is in use. -/
def Holds (table : Table key) (taken : Key) : Prop := ∃ row ∈ table.rows, key row.data = taken

instance [DecidableEq Key] (table : Table key) (taken : Key) : Decidable (table.Holds taken) :=
  inferInstanceAs (Decidable (∃ row ∈ table.rows, key row.data = taken))

/-- The table after one more id was drawn. -/
def skip (table : Table key) : Table key where
  rows := table.rows
  next := table.next + 1
  fresh := fun row member => Nat.lt_succ_of_lt (table.fresh row member)
  ids := table.ids
  keys := table.keys

def push (table : Table key) (data : Data) (free : ¬ table.Holds (key data)) : Table key where
  rows := table.rows ++ [⟨table.next, data⟩]
  next := table.next + 1
  fresh := by
    intro row member
    rcases List.mem_append.mp member with old | last
    · exact Nat.lt_succ_of_lt (table.fresh row old)
    · obtain rfl := List.mem_singleton.mp last
      exact Nat.lt_succ_self _
  ids := by
    rw [List.map_append, List.nodup_append]
    refine ⟨table.ids, List.nodup_singleton _, ?_⟩
    intro id old last drawn same
    obtain ⟨row, member, rfl⟩ := List.mem_map.mp old
    obtain rfl := List.mem_singleton.mp drawn
    exact absurd (table.fresh row member) (by rw [same]; exact Nat.lt_irrefl _)
  keys := by
    rw [List.map_append, List.nodup_append]
    refine ⟨table.keys, List.nodup_singleton _, ?_⟩
    intro taken old last drawn same
    obtain ⟨row, member, rfl⟩ := List.mem_map.mp old
    obtain rfl := List.mem_singleton.mp drawn
    exact free ⟨row, member, same⟩

theorem id_inj {table : Table key} {row other : Stored Data} (member : row ∈ table.rows) (listed : other ∈ table.rows)
    (same : row.id = other.id) : row = other := List.inj_on_of_nodup_map table.ids member listed same

theorem key_inj {table : Table key} {row other : Stored Data} (member : row ∈ table.rows) (listed : other ∈ table.rows)
    (same : key row.data = key other.data) : row = other := List.inj_on_of_nodup_map table.keys member listed same

theorem data_nodup (table : Table key) : (table.rows.map Stored.data).Nodup := by
  apply List.Nodup.of_map key
  rw [List.map_map]
  exact table.keys

variable [DecidableEq Key]

/-- `INSERT … ON CONFLICT (key) DO NOTHING RETURNING *` -/
def insert (table : Table key) : List Data → Table key × List (Stored Data)
  | [] => (table, [])
  | data :: proposed =>
    if free : ¬ table.Holds (key data) then
      let (last, inserted) := (table.push data free).insert proposed
      (last, ⟨table.next, data⟩ :: inserted)
    else table.skip.insert proposed

def rollback (before after : Table key) : Table key where
  rows := before.rows
  next := max before.next after.next
  fresh := fun row member => Nat.lt_of_lt_of_le (before.fresh row member) (Nat.le_max_left _ _)
  ids := before.ids
  keys := before.keys

variable {table : Table key} {proposed : List Data} {row : Stored Data} {data : Data} {taken : Key}

theorem insert_rows (table : Table key) (proposed : List Data) :
    (table.insert proposed).1.rows = table.rows ++ (table.insert proposed).2 := by
  fun_induction insert table proposed with
  | case1 table => exact (List.append_nil _).symm
  | case2 table data proposed free last inserted same ih =>
    rw [same] at ih
    rw [ih]
    exact List.append_assoc _ _ _
  | case3 table data proposed taken ih => exact ih

/-- Only proposed rows are inserted, and only where the key was free. -/
theorem insert_proposed (member : row ∈ (table.insert proposed).2) :
    row.data ∈ proposed ∧ ¬ table.Holds (key row.data) := by
  fun_induction insert table proposed with
  | case1 table => cases member
  | case2 table data proposed free last inserted same ih =>
    rw [same] at ih
    rcases List.mem_cons.mp member with rfl | later
    · exact ⟨List.mem_cons_self, free⟩
    · obtain ⟨known, open_⟩ := ih later
      refine ⟨List.mem_cons_of_mem _ known, ?_⟩
      rintro ⟨old, kept, same⟩
      exact open_ ⟨old, List.mem_append_left _ kept, same⟩
  | case3 table data proposed taken ih =>
    obtain ⟨known, open_⟩ := ih member
    exact ⟨List.mem_cons_of_mem _ known, open_⟩

theorem mem_insert (member : row ∈ (table.insert proposed).1.rows) : row ∈ table.rows ∨ row.data ∈ proposed := by
  rw [insert_rows] at member
  rcases List.mem_append.mp member with old | new
  · exact .inl old
  · exact .inr (insert_proposed new).1

theorem Holds.insert (holds : table.Holds taken) (proposed : List Data) : (table.insert proposed).1.Holds taken := by
  obtain ⟨row, member, same⟩ := holds
  refine ⟨row, ?_, same⟩
  rw [insert_rows]
  exact List.mem_append_left _ member

/-- Whatever was there before, every proposed key is there afterwards. -/
theorem insert_holds (table : Table key) (member : data ∈ proposed) : (table.insert proposed).1.Holds (key data) := by
  fun_induction Table.insert table proposed with
  | case1 table => cases member
  | case2 table first proposed free last inserted same ih =>
    rw [same] at ih
    rcases List.mem_cons.mp member with rfl | later
    · have pushed : (table.push data free).Holds (key data) :=
        ⟨⟨table.next, data⟩, List.mem_append_right _ List.mem_cons_self, rfl⟩
      have kept := pushed.insert proposed
      rw [same] at kept
      exact kept
    · exact ih later
  | case3 table first proposed blocked ih =>
    rcases List.mem_cons.mp member with rfl | later
    · have present : table.skip.Holds (key data) := not_not.mp blocked
      exact present.insert proposed
    · exact ih later

/-- A key in use was in use before, or is that of an inserted row. -/
theorem holds_insert (holds : (table.insert proposed).1.Holds taken) :
    table.Holds taken ∨ ∃ row ∈ (table.insert proposed).2, key row.data = taken := by
  obtain ⟨row, member, keyed⟩ := holds
  rw [insert_rows] at member
  rcases List.mem_append.mp member with old | new
  · exact .inl ⟨row, old, keyed⟩
  · exact .inr ⟨row, new, keyed⟩

/-- Of several proposed rows with one key the first is inserted. -/
theorem insert_first (member : row ∈ (table.insert proposed).2) :
    proposed.find? (fun data => key data = key row.data) = some row.data := by
  fun_induction Table.insert table proposed with
  | case1 table => cases member
  | case2 table first proposed free last inserted same ih =>
    rcases List.mem_cons.mp member with rfl | later
    · simp
    · have listed : row ∈ ((table.push first free).insert proposed).2 := by
        rw [same]
        exact later
      have open_ := (insert_proposed listed).2
      have other : key first ≠ key row.data := by
        intro equal
        exact open_ ⟨⟨table.next, first⟩, List.mem_append_right _ List.mem_cons_self, equal⟩
      rw [same] at ih
      rw [List.find?_cons_of_neg (by simpa using other)]
      exact ih later
  | case3 table first proposed blocked ih =>
    have open_ := (insert_proposed member).2
    have other : key first ≠ key row.data := by
      intro equal
      exact open_ (equal ▸ not_not.mp blocked)
    rw [List.find?_cons_of_neg (by simpa using other)]
    exact ih member

/-- Proposed rows with different keys are inserted wherever the key was free. -/
theorem insert_data (table : Table key) (distinct : (proposed.map key).Nodup) :
    (table.insert proposed).2.map Stored.data = proposed.filter fun data => ¬ table.Holds (key data) := by
  fun_induction Table.insert table proposed with
  | case1 table => rfl
  | case2 table first proposed free last inserted same ih =>
    obtain ⟨new, distinct⟩ := List.nodup_cons.mp distinct
    rw [same] at ih
    rw [List.map_cons, ih distinct, List.filter_cons_of_pos (by simpa using free)]
    congr 1
    apply List.filter_congr
    intro data member
    have other : key first ≠ key data := by
      intro equal
      exact new (equal ▸ List.mem_map_of_mem member)
    have unchanged : (table.push first free).Holds (key data) ↔ table.Holds (key data) := by
      simp [Holds, push, other]
    simp only [unchanged]
  | case3 table first proposed blocked ih =>
    rw [List.filter_cons_of_neg (by simpa using blocked)]
    exact ih (List.nodup_cons.mp distinct).2

/-- Rows stand in the order of their ids. -/
def Ascending (table : Table key) : Prop := table.rows.Pairwise fun earlier later => earlier.id < later.id

theorem Ascending.insert (ascending : table.Ascending) (proposed : List Data) : (table.insert proposed).1.Ascending := by
  fun_induction Table.insert table proposed with
  | case1 table => exact ascending
  | case2 table first proposed free last inserted same ih =>
    rw [same] at ih
    apply ih
    apply List.pairwise_append.mpr
    refine ⟨ascending, List.pairwise_singleton _ _, ?_⟩
    intro row member last_ only
    obtain rfl := List.mem_singleton.mp only
    exact table.fresh row member
  | case3 table first proposed blocked ih => exact ih ascending

end Table

end Library
