import DeepPool.Indexer.Domain

/-! The list endpoints (`api.rs`), with the services (`services/*.rs`) and the statements
(`domain/*.rs`) behind them. A request reads one snapshot of the tables. Swaps and liquidity
events of one time come in any order, so their lists are relations. -/

namespace DeepPool.Indexer
open Library

structure SwapFilter where
  ids : Option (List Int)
  poolIds : Option (List Int)
  users : Option (List String)
  since : Option Int
  before : Option Int
  limit : Option Int

def SwapFilter.all : SwapFilter := ⟨none, none, none, none, none, none⟩

def SwapFilter.admits (filter : SwapFilter) (row : Stored NewSwapRow) : Bool :=
  filter.ids.all ((row.id : Int) ∈ ·) && filter.poolIds.all ((row.data.poolId : Int) ∈ ·) &&
    filter.users.all (row.data.userPk ∈ ·) && filter.since.all (· < row.data.createdAt) &&
    filter.before.all (row.data.createdAt < ·)

structure LiquidityFilter where
  ids : Option (List Int)
  poolIds : Option (List Int)
  providers : Option (List String)
  isAdd : Option Bool
  since : Option Int
  before : Option Int
  limit : Option Int

def LiquidityFilter.all : LiquidityFilter := ⟨none, none, none, none, none, none, none⟩

def LiquidityFilter.admits (filter : LiquidityFilter) (row : Stored NewLiquidityRow) : Bool :=
  filter.ids.all ((row.id : Int) ∈ ·) && filter.poolIds.all ((row.data.poolId : Int) ∈ ·) &&
    filter.providers.all (row.data.provider ∈ ·) && filter.isAdd.all (row.data.isAdd = ·) &&
    filter.since.all (· < row.data.createdAt) && filter.before.all (row.data.createdAt < ·)

namespace Db

/-- `swap::list` -/
def swapList (filter : SwapFilter) (db : Db) (rows : List (Stored NewSwapRow)) : Prop :=
  Page (fun row => row.data.createdAt) filter.limit (db.swaps.rows.filter filter.admits) rows

/-- `liquidity::list` -/
def liquidityList (filter : LiquidityFilter) (db : Db) (rows : List (Stored NewLiquidityRow)) : Prop :=
  Page (fun row => row.data.createdAt) filter.limit (db.liquidityEvents.rows.filter filter.admits) rows

/-- `PoolService::for_token_mints` -/
def forTokenMints (tokenMints : List String) (db : Db) : List (Stored NewPoolRow) :=
  db.poolList { PoolFilter.all with tokenMints := some tokenMints }

/-- `PoolService::for_creators` -/
def forCreators (creators : List String) (db : Db) : List (Stored NewPoolRow) :=
  db.poolList { PoolFilter.all with creators := some creators }

/-- `SwapService::for_token_mint` -/
def swapsForTokenMint (mint : String) (limit : Option Int) (db : Db) (rows : List (Stored NewSwapRow)) : Prop :=
  let poolIds : List Int := (db.forTokenMints [mint]).map fun pool => (pool.id : Int)
  if poolIds.isEmpty then rows = [] else db.swapList { SwapFilter.all with poolIds := some poolIds, limit } rows

/-- `LiquidityService::for_token_mint` -/
def liquidityForTokenMint (mint : String) (limit : Option Int) (db : Db) (rows : List (Stored NewLiquidityRow)) :
    Prop :=
  let poolIds : List Int := (db.forTokenMints [mint]).map fun pool => (pool.id : Int)
  if poolIds.isEmpty then rows = []
  else db.liquidityList { LiquidityFilter.all with poolIds := some poolIds, limit } rows

end Db

structure PoolsQuery where
  tokenMint : Option String
  creator : Option String
  limit : Option Int

/-- `list_pools`. The database refuses a negative limit. -/
def listPools (q : PoolsQuery) (db : Db) : Option (List (Stored NewPoolRow)) :=
  match q.tokenMint with
  | some mint => some (db.forTokenMints [mint])
  | none =>
    match q.creator with
    | some creator => some (db.forCreators [creator])
    | none =>
      if ∃ limit ∈ q.limit, limit < 0 then none
      else some (db.poolList { PoolFilter.all with limit := q.limit.map Int.toNat })

/-- `limit.unwrap_or(50).clamp(1, 500)` -/
def historyLimit (limit : Option Int) : Int := max 1 (min (limit.getD 50) 500)

structure SwapsQuery where
  poolId : Option Int
  user : Option String
  tokenMint : Option String
  since : Option Int
  before : Option Int
  limit : Option Int

/-- `list_swaps` -/
def listSwaps (q : SwapsQuery) (db : Db) (rows : List (Stored NewSwapRow)) : Prop :=
  let limit := historyLimit q.limit
  match q.tokenMint with
  | some mint => db.swapsForTokenMint mint (some limit) rows
  | none =>
    db.swapList { SwapFilter.all with
      poolIds := q.poolId.map fun id => [id]
      users := q.user.map fun user => [user]
      since := q.since
      before := q.before
      limit := some limit } rows

structure LiquidityQuery where
  poolId : Option Int
  provider : Option String
  tokenMint : Option String
  isAdd : Option Bool
  since : Option Int
  before : Option Int
  limit : Option Int

/-- `list_liquidity` -/
def listLiquidity (q : LiquidityQuery) (db : Db) (rows : List (Stored NewLiquidityRow)) : Prop :=
  let limit := historyLimit q.limit
  match q.tokenMint with
  | some mint => db.liquidityForTokenMint mint (some limit) rows
  | none =>
    db.liquidityList { LiquidityFilter.all with
      poolIds := q.poolId.map fun id => [id]
      providers := q.provider.map fun provider => [provider]
      isAdd := q.isAdd
      since := q.since
      before := q.before
      limit := some limit } rows

end DeepPool.Indexer
