import DeepPool.Library.Query
import DeepPool.Library.Table
import DeepPool.Indexer.Contracts

/-! The tables of the index (`db/01-schema.sql`) and the statements over them
(`domain/*.rs`). -/

namespace DeepPool.Indexer
open Library

/-- `UNIQUE (signature, inner_ix_idx)` -/
abbrev EventKey := String × Nat

def DecodedEvent.key (de : DecodedEvent) : EventKey := (de.signature, de.innerIxIdx)
def NewReservesRow.key (row : NewReservesRow) : EventKey := (row.signature, row.innerIxIdx)
def NewSwapRow.key (row : NewSwapRow) : EventKey := (row.signature, row.innerIxIdx)
def NewLiquidityRow.key (row : NewLiquidityRow) : EventKey := (row.signature, row.innerIxIdx)

structure Db where
  pools : Table NewPoolRow.pubkey
  reserves : Table NewReservesRow.key
  swaps : Table NewSwapRow.key
  liquidityEvents : Table NewLiquidityRow.key
  checkpoint : Option Int

/-- The statements of a write, in the order they are sent. -/
inductive Stage where
  | begin
  | setPools
  | listPools
  | setReserves
  | setSwaps
  | setLiquidity
  | setCheckpoint
  | commit
  deriving DecidableEq

inductive WriteError where
  | failed (stage : Stage)
  | foreignKey (stage : Stage)
  deriving DecidableEq

namespace Db

def empty : Db := ⟨.empty, .empty, .empty, .empty, none⟩

/-- The ids a failed transaction drew stay drawn. -/
def rollback (before after : Db) : Db where
  pools := before.pools.rollback after.pools
  reserves := before.reserves.rollback after.reserves
  swaps := before.swaps.rollback after.swaps
  liquidityEvents := before.liquidityEvents.rollback after.liquidityEvents
  checkpoint := before.checkpoint

/-- `REFERENCES pools(pool_id)` -/
def HasPool (db : Db) (poolId : Nat) : Prop := ∃ row ∈ db.pools.rows, row.id = poolId

instance (db : Db) (poolId : Nat) : Decidable (db.HasPool poolId) :=
  inferInstanceAs (Decidable (∃ row ∈ db.pools.rows, row.id = poolId))

def poolSet (rows : List NewPoolRow) (db : Db) : Except WriteError (Db × List (Stored NewPoolRow)) :=
  let (pools, inserted) := db.pools.insert rows
  .ok ({ db with pools }, inserted)

def reservesSet (rows : List NewReservesRow) (db : Db) : Except WriteError (Db × List (Stored NewReservesRow)) :=
  let (reserves, inserted) := db.reserves.insert rows
  if ∀ row ∈ inserted, db.HasPool row.data.poolId then .ok ({ db with reserves }, inserted)
  else .error (.foreignKey .setReserves)

def swapSet (rows : List NewSwapRow) (db : Db) : Except WriteError (Db × List (Stored NewSwapRow)) :=
  let (swaps, inserted) := db.swaps.insert rows
  if ∀ row ∈ inserted, db.HasPool row.data.poolId then .ok ({ db with swaps }, inserted)
  else .error (.foreignKey .setSwaps)

def liquiditySet (rows : List NewLiquidityRow) (db : Db) : Except WriteError (Db × List (Stored NewLiquidityRow)) :=
  let (liquidityEvents, inserted) := db.liquidityEvents.insert rows
  if ∀ row ∈ inserted, db.HasPool row.data.poolId then .ok ({ db with liquidityEvents }, inserted)
  else .error (.foreignKey .setLiquidity)

end Db

structure PoolFilter where
  ids : Option (List Nat)
  pubkeys : Option (List String)
  tokenMints : Option (List String)
  creators : Option (List String)
  limit : Option Nat

def PoolFilter.all : PoolFilter := ⟨none, none, none, none, none⟩

def PoolFilter.admits (filter : PoolFilter) (row : Stored NewPoolRow) : Bool :=
  filter.ids.all (row.id ∈ ·) && filter.pubkeys.all (row.data.pubkey ∈ ·) &&
    filter.tokenMints.all (row.data.tokenMint ∈ ·) && filter.creators.all (row.data.creator ∈ ·)

def Db.poolList (filter : PoolFilter) (db : Db) : List (Stored NewPoolRow) :=
  let rows := (db.pools.rows.filter filter.admits).insertionSort (fun a b => a.id ≤ b.id)
  filter.limit.elim rows rows.take

/-- `ORDER BY last_slot DESC, reserve_id DESC` -/
def newerReserves (a b : Stored NewReservesRow) : Bool :=
  b.data.lastSlot < a.data.lastSlot || b.data.lastSlot == a.data.lastSlot && b.id ≤ a.id

/-- `SELECT DISTINCT ON (pool_id)` in that order, for one pool. -/
def Db.newestReserves (db : Db) (poolId : Nat) : Option (Stored NewReservesRow) :=
  ((db.reserves.rows.filter (·.data.poolId = poolId)).insertionSort (newerReserves · ·)).head?

/-- The order of texts in the database. Two different texts never compare equal. -/
structure Collation where
  Rank : Type
  order : LinearOrder Rank
  rank : String → Rank
  injective : Function.Injective rank

attribute [instance] Collation.order

/-- `ORDER BY last_slot DESC, signature DESC, inner_ix_idx DESC` -/
abbrev Collation.newest {Row : Type} (collation : Collation) (lastSlot : Row → Int) (signature : Row → String)
    (innerIxIdx : Row → Nat) : Row → Row → Prop :=
  thenBy (descending lastSlot) (thenBy (descending fun row => collation.rank (signature row)) (descending innerIxIdx))

/-- `reserves::latest_for_pools` -/
def Db.latestForPools (collation : Collation) (poolIds : List Nat) (db : Db) : List (Stored NewReservesRow) :=
  if poolIds.isEmpty then []
  else
    let rows := db.reserves.rows.filter (·.data.poolId ∈ poolIds)
    distinctOn (·.data.poolId) (rows.insertionSort (thenBy (ascending (·.data.poolId))
      (collation.newest (·.data.lastSlot) (·.data.signature) (·.data.innerIxIdx))))

/-- `as u64` -/
def asU64 (value : Int) : U64 :=
  ⟨(value % 18446744073709551616).toNat, by
    have low := Int.emod_nonneg value (b := 18446744073709551616) (by decide)
    have high := Int.emod_lt_of_pos value (b := 18446744073709551616) (by decide)
    omega⟩

/-- `db::last_processed_slot` -/
def Db.lastProcessedSlot (db : Db) : U64 := db.checkpoint.elim 0 asU64

theorem asU64_asI64 (word : U64) : asU64 (asI64 word) = word := by
  have bound := word.isLt
  apply Fin.ext
  change (asI64 word % 18446744073709551616).toNat = word.val
  unfold asI64
  split <;> omega

end DeepPool.Indexer
