import DeepPool.Indexer.Replay
import DeepPool.Proofs.Mirror

/-! Two databases that mirror one archive have the same contents up to their serial ids. -/

namespace DeepPool.Indexer
open Library

section Kept
variable {Data : Type} {key : Data → EventKey} {pool : Data → Nat}
  {spec : Nat → List DecodedEvent → List Data} {archive : Archive} {rename : Nat → Nat}
  {pools others : Table NewPoolRow.pubkey} {table other : Table key}

/-- Each pool stands in the other table under its new id. -/
structure Twins (rename : Nat → Nat) (pools others : Table NewPoolRow.pubkey) : Prop where
  forward : ∀ row ∈ pools.rows, ∃ twin ∈ others.rows, twin.data = row.data ∧ twin.id = rename row.id
  backward : ∀ twin ∈ others.rows, ∃ row ∈ pools.rows, twin.data = row.data ∧ twin.id = rename row.id

theorem Kept.mem (kept : Kept pool spec archive pools table) {data : Data} :
    data ∈ table.rows.map Stored.data ↔
      ∃ row ∈ pools.rows, row.id = pool data ∧ data ∈ spec row.id (archive.line row.data.pubkey) := by
  constructor
  · intro member
    obtain ⟨stored, present, rfl⟩ := List.mem_map.mp member
    obtain ⟨row, known, same⟩ := kept.owned stored present
    refine ⟨row, known, same, ?_⟩
    rw [← kept.lines row known]
    exact List.mem_filter.mpr ⟨member, decide_eq_true same.symm⟩
  · rintro ⟨row, known, _, recorded⟩
    rw [← kept.lines row known] at recorded
    exact List.mem_of_mem_filter recorded

theorem Kept.renames (readdress : Nat → Data → Data) (left : Kept pool spec archive pools table)
    (right : Kept pool spec archive others other)
    (twins : Twins rename pools others) (keyed : ∀ id data, key (readdress id data) = key data)
    (moved : ∀ id moved line, (spec id line).map (readdress moved) = spec moved line)
    (addressed : ∀ id line, ∀ data ∈ spec id line, pool data = id) :
    (table.rows.map fun row => readdress (rename (pool row.data)) row.data).Perm (other.rows.map Stored.data) := by
  have nodup : (table.rows.map fun row => readdress (rename (pool row.data)) row.data).Nodup := by
    apply List.Nodup.of_map key
    rw [List.map_map]
    convert table.keys using 2
    exact funext fun row => keyed _ _
  rw [List.perm_ext_iff_of_nodup nodup (other.data_nodup)]
  intro data
  rw [right.mem]
  constructor
  · intro member
    obtain ⟨stored, present, rfl⟩ := List.mem_map.mp member
    obtain ⟨row, known, same, recorded⟩ := left.mem.mp (List.mem_map_of_mem present)
    obtain ⟨twin, listed, equal, renamed⟩ := twins.forward row known
    have there := List.mem_map_of_mem (f := readdress twin.id) recorded
    rw [moved, ← equal] at there
    rw [← same, ← renamed]
    exact ⟨twin, listed, (addressed _ _ _ there).symm, there⟩
  · rintro ⟨twin, listed, _, recorded⟩
    obtain ⟨row, known, equal, renamed⟩ := twins.backward twin listed
    rw [equal, ← moved row.id] at recorded
    obtain ⟨source, written, rfl⟩ := List.mem_map.mp recorded
    have home := addressed _ _ _ written
    obtain ⟨stored, present, rfl⟩ := List.mem_map.mp (left.mem.mpr ⟨row, known, home.symm, written⟩)
    refine List.mem_map.mpr ⟨stored, present, ?_⟩
    rw [home, renamed]

end Kept

section Lines
variable {poolId moved : Nat} {carried : Option Int} {line : List DecodedEvent}

theorem reservesFrom_moved : (reservesFrom 0 poolId carried line).map (NewReservesRow.readdress moved) =
    reservesFrom 0 moved carried line := by
  induction line generalizing carried with
  | nil => rfl
  | cons de line ih =>
    rw [reservesFrom, List.map_cons, ih, reservesFrom]
    congr 1
    unfold reservesRow
    split <;> rfl

theorem reservesFrom_poolId {row : NewReservesRow} (member : row ∈ reservesFrom 0 poolId carried line) :
    row.poolId = poolId := by
  induction line generalizing carried with
  | nil => cases member
  | cons de line ih =>
    rcases List.mem_cons.mp member with rfl | later
    · exact reservesRow_poolId carried de
    · exact ih later

theorem swapLine_moved : (swapLine poolId line).map (NewSwapRow.readdress moved) = swapLine moved line := by
  rw [swapLine, List.map_filterMap]
  apply List.filterMap_congr
  intro de _
  unfold swapRow
  cases de.event <;> rfl

theorem liquidityLine_moved :
    (liquidityLine poolId line).map (NewLiquidityRow.readdress moved) = liquidityLine moved line := by
  rw [liquidityLine, List.map_filterMap]
  apply List.filterMap_congr
  intro de _
  unfold liquidityRow
  cases de.event <;> rfl

end Lines

section Same
variable {archive : Archive} {db other : Db}

/-- The other database's id of the same pool. -/
def Db.renaming (db other : Db) (poolId : Nat) : Nat :=
  ((db.pools.rows.find? fun row => row.id = poolId).bind fun row => loadPoolCache other row.data.pubkey).getD 0

theorem loadPoolCache_row {row : Stored NewPoolRow} (member : row ∈ db.pools.rows) :
    loadPoolCache db row.data.pubkey = some row.id := by
  unfold loadPoolCache
  cases found : db.pools.rows.find? fun stored => stored.data.pubkey = row.data.pubkey with
  | none => exact absurd (List.find?_eq_none.mp found row member) (by simp)
  | some stored =>
    have named := List.find?_some found
    rw [decide_eq_true_eq] at named
    rw [Table.key_inj (List.mem_of_find?_eq_some found) member named]
    rfl

theorem Db.renaming_row {row twin : Stored NewPoolRow} (member : row ∈ db.pools.rows) (listed : twin ∈ other.pools.rows)
    (same : twin.data = row.data) : db.renaming other row.id = twin.id := by
  unfold Db.renaming
  cases found : db.pools.rows.find? fun stored => stored.id = row.id with
  | none => exact absurd (List.find?_eq_none.mp found row member) (by simp)
  | some stored =>
    have identified := List.find?_some found
    rw [decide_eq_true_eq] at identified
    rw [Table.id_inj (List.mem_of_find?_eq_some found) member identified, Option.bind_some, ← same,
      loadPoolCache_row listed, Option.getD_some]

theorem Db.Mirrors.twin (left : db.Mirrors archive) (right : other.Mirrors archive) {row : Stored NewPoolRow}
    (member : row ∈ db.pools.rows) : ∃ twin ∈ other.pools.rows, twin.data = row.data := by
  obtain ⟨line, known⟩ := left.known member
  obtain ⟨twin, listed, named⟩ := right.named _ line known
  have made := right.pools twin listed
  rw [named, left.pools row member] at made
  exact ⟨twin, listed, (Option.some.inj made).symm⟩

theorem Db.Mirrors.same (left : db.Mirrors archive) (right : other.Mirrors archive) : db.SameContents other := by
  have twins : Twins (db.renaming other) db.pools other.pools := by
    constructor
    · intro row member
      obtain ⟨twin, listed, same⟩ := left.twin right member
      exact ⟨twin, listed, same, (Db.renaming_row member listed same).symm⟩
    · intro twin listed
      obtain ⟨row, member, same⟩ := right.twin left listed
      exact ⟨row, member, same.symm, (Db.renaming_row member listed same.symm).symm⟩
  refine ⟨db.renaming other, ?_, ?_, ?_, ?_⟩
  · have distinct : (db.pools.rows.map fun row => (db.renaming other row.id, row.data)).Nodup := by
      apply List.Nodup.of_map Prod.snd
      rw [List.map_map]
      exact db.pools.data_nodup
    have others : (other.pools.rows.map fun row => (row.id, row.data)).Nodup := by
      apply List.Nodup.of_map Prod.snd
      rw [List.map_map]
      exact other.pools.data_nodup
    rw [List.perm_ext_iff_of_nodup distinct others]
    intro entry
    rw [List.mem_map, List.mem_map]
    constructor
    · rintro ⟨row, member, rfl⟩
      obtain ⟨twin, listed, same, renamed⟩ := twins.forward row member
      exact ⟨twin, listed, by rw [same, renamed]⟩
    · rintro ⟨twin, listed, rfl⟩
      obtain ⟨row, member, same, renamed⟩ := twins.backward twin listed
      exact ⟨row, member, by rw [same, renamed]⟩
  · exact left.reserves.renames NewReservesRow.readdress right.reserves twins (fun _ _ => rfl)
      (fun _ _ _ => reservesFrom_moved) (fun _ _ _ => reservesFrom_poolId)
  · exact left.swaps.renames NewSwapRow.readdress right.swaps twins (fun _ _ => rfl) (fun _ _ _ => swapLine_moved)
      (fun _ _ _ => swapLine_poolId)
  · exact left.liquidity.renames NewLiquidityRow.readdress right.liquidity twins (fun _ _ => rfl)
      (fun _ _ _ => liquidityLine_moved) (fun _ _ _ => liquidityLine_poolId)

end Same
end DeepPool.Indexer
