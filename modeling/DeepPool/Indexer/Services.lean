import DeepPool.Indexer.Api

/-! The services behind the API (`services/*.rs`). A request reads one snapshot of the
database and keeps the pools and the current reserves that it has read. -/

namespace DeepPool.Indexer
open Library

structure Cache where
  poolsById : Nat → Option (Stored NewPoolRow)
  poolsByPubkey : String → Option (Stored NewPoolRow)
  reservesByPoolId : Nat → Option (Stored NewReservesRow)

def Cache.default : Cache := ⟨fun _ => none, fun _ => none, fun _ => none⟩

/-- What is done in a `RequestCtx`, whose transaction is the snapshot. -/
abbrev Request := StateM Cache

/-- `pool::get` -/
def Db.poolGet (poolId : Nat) (db : Db) : Option (Stored NewPoolRow) := db.pools.rows.find? (·.id = poolId)

/-- The rows of a map by pool; a later row of a pool replaces an earlier one. -/
def byPool (rows : List (Stored NewReservesRow)) (start : Nat → Option (Stored NewReservesRow)) :
    Nat → Option (Stored NewReservesRow) :=
  rows.foldl (fun map row => Function.update map row.data.poolId (some row)) start

namespace PoolService

def cacheOne (row : Stored NewPoolRow) : Request (Stored NewPoolRow) := do
  modify fun cache => { cache with
    poolsById := Function.update cache.poolsById row.id (some row)
    poolsByPubkey := Function.update cache.poolsByPubkey row.data.pubkey (some row) }
  return row

def cacheMany (rows : List (Stored NewPoolRow)) : Request (List (Stored NewPoolRow)) := rows.mapM cacheOne

variable (db : Db)

def byId (poolId : Nat) : Request (Option (Stored NewPoolRow)) := do
  match (← get).poolsById poolId with
  | some cached => return some cached
  | none =>
    match db.poolGet poolId with
    | none => return none
    | some row => return some (← cacheOne row)

def byPubkey (pubkey : String) : Request (Option (Stored NewPoolRow)) := do
  match (← get).poolsByPubkey pubkey with
  | some cached => return some cached
  | none =>
    match (db.poolList { PoolFilter.all with pubkeys := some [pubkey] }).head? with
    | none => return none
    | some row => return some (← cacheOne row)

def forTokenMints (tokenMints : List String) : Request (List (Stored NewPoolRow)) :=
  cacheMany (db.forTokenMints tokenMints)

def forCreators (creators : List String) : Request (List (Stored NewPoolRow)) := cacheMany (db.forCreators creators)

def list (filter : PoolFilter) : Request (List (Stored NewPoolRow)) := cacheMany (db.poolList filter)

end PoolService

namespace ReservesService
variable (collation : Collation) (db : Db)

def latestForPools (poolIds : List Nat) : Request (Nat → Option (Stored NewReservesRow)) := do
  let cache ← get
  let result := fun id => if id ∈ poolIds then cache.reservesByPoolId id else none
  let toFetch := poolIds.filter fun id => (cache.reservesByPoolId id).isNone
  if toFetch.isEmpty then return result
  else
    let rows := db.latestForPools collation toFetch
    set { cache with reservesByPoolId := byPool rows cache.reservesByPoolId }
    return byPool rows result

def latestForPool (poolId : Nat) : Request (Option (Stored NewReservesRow)) := do
  match (← get).reservesByPoolId poolId with
  | some cached => return some cached
  | none => return (← latestForPools collation db [poolId]) poolId

end ReservesService

structure PoolDetail where
  pool : Stored NewPoolRow
  reserves : Option (Stored NewReservesRow)

/-- `get_pool`. The answer is 404 where there is none. -/
def getPool (collation : Collation) (db : Db) (pubkey : String) : Request (Option PoolDetail) := do
  match ← PoolService.byPubkey db pubkey with
  | none => return none
  | some pool => return some ⟨pool, ← ReservesService.latestForPool collation db pool.id⟩

/-- One call of a service within a request. -/
inductive ServiceCall where
  | byId (poolId : Nat)
  | byPubkey (pubkey : String)
  | forTokenMints (tokenMints : List String)
  | forCreators (creators : List String)
  | list (filter : PoolFilter)
  | latestForPool (poolId : Nat)
  | latestForPools (poolIds : List Nat)

inductive ServiceAnswer where
  | pool (row : Option (Stored NewPoolRow))
  | pools (rows : List (Stored NewPoolRow))
  | reserves (row : Option (Stored NewReservesRow))
  | latest (rows : Nat → Option (Stored NewReservesRow))

def ServiceCall.request (collation : Collation) (db : Db) : ServiceCall → Request ServiceAnswer
  | .byId poolId => return .pool (← PoolService.byId db poolId)
  | .byPubkey pubkey => return .pool (← PoolService.byPubkey db pubkey)
  | .forTokenMints tokenMints => return .pools (← PoolService.forTokenMints db tokenMints)
  | .forCreators creators => return .pools (← PoolService.forCreators db creators)
  | .list filter => return .pools (← PoolService.list db filter)
  | .latestForPool poolId => return .reserves (← ReservesService.latestForPool collation db poolId)
  | .latestForPools poolIds => return .latest (← ReservesService.latestForPools collation db poolIds)

/-- The current reserves of one pool, in a query of its own. -/
def Db.latestForPool (collation : Collation) (poolId : Nat) (db : Db) : Option (Stored NewReservesRow) :=
  (db.latestForPools collation [poolId]).head?

/-- The answer of the database to a query of the call's own. -/
def ServiceCall.direct (collation : Collation) (db : Db) : ServiceCall → ServiceAnswer
  | .byId poolId => .pool (db.poolGet poolId)
  | .byPubkey pubkey => .pool (db.poolList { PoolFilter.all with pubkeys := some [pubkey] }).head?
  | .forTokenMints tokenMints => .pools (db.forTokenMints tokenMints)
  | .forCreators creators => .pools (db.forCreators creators)
  | .list filter => .pools (db.poolList filter)
  | .latestForPool poolId => .reserves (db.latestForPool collation poolId)
  | .latestForPools poolIds => .latest fun id => if id ∈ poolIds then db.latestForPool collation id else none

end DeepPool.Indexer
