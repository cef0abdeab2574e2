import Mathlib.Logic.Function.Basic
import DeepPool.Indexer.Domain
import DeepPool.Indexer.Translate

/-! The writer (`stream/writer.rs`) and the backfill's page writer
(`stream/backfill.rs`): the caches they keep between transactions, the statements they
share, and what each adds to them. -/

namespace DeepPool.Indexer
open Library

/-- What the outside decides during one write: the clock, and the statements that fail. -/
structure Environment where
  now : Int
  fails : Stage → Bool

structure Session where
  db : Db
  poolCache : String → Option Nat
  lpSupplyCache : Nat → Option Int

abbrev Job := EStateM WriteError Session

structure Written where
  pools : List (Stored NewPoolRow)
  reserves : List (Stored NewReservesRow)
  swaps : List (Stored NewSwapRow)
  liquidity : List (Stored NewLiquidityRow)

def loadPoolCache (db : Db) (pubkey : String) : Option Nat :=
  (db.pools.rows.find? (·.data.pubkey = pubkey)).map Stored.id

def loadLpSupplyCache (db : Db) (poolId : Nat) : Option Int :=
  (db.newestReserves poolId).map (·.data.lpSupply)

def Session.load (db : Db) : Session := ⟨db, loadPoolCache db, loadLpSupplyCache db⟩

section Statements
variable {Result : Type}

def statement (env : Environment) (stage : Stage) (run : Db → Except WriteError (Db × Result)) :
    Job Result := fun session =>
  if env.fails stage then .error (.failed stage) session
  else
    match run session.db with
    | .error error => .error error session
    | .ok (db, result) => .ok result { session with db }

/-- A batch insert without rows sends no statement. -/
def insertion {Row : Type} (env : Environment) (stage : Stage) (rows : List Row)
    (run : Db → Except WriteError (Db × List (Stored Row))) : Job (List (Stored Row)) :=
  if rows.isEmpty then pure [] else statement env stage run

def notice (env : Environment) (stage : Stage) : Job Unit := statement env stage fun db => .ok (db, ())

/-- A failure rolls the tables back. The caches keep what they learned. -/
def transaction (body : Job Result) : Job Result := fun session =>
  match body session with
  | .ok result after => .ok result after
  | .error error after => .error error { after with db := session.db.rollback after.db }

end Statements

def learn (poolCache : String → Option Nat) (row : Stored NewPoolRow) : String → Option Nat :=
  Function.update poolCache row.data.pubkey (some row.id)

def remember (rows : List (Stored NewPoolRow)) : Job Unit :=
  modify fun session => { session with poolCache := rows.foldl learn session.poolCache }

/-- Rows of the second pass, with the LP supplies carried along. -/
structure Batches where
  lpSupplyCache : Nat → Option Int
  swaps : List NewSwapRow
  liquidity : List NewLiquidityRow
  reserves : List NewReservesRow

def Batches.add (now : Int) (poolCache : String → Option Nat) (batches : Batches) (de : DecodedEvent) : Batches :=
  match poolCache (poolPubkey de.event) with
  | none => batches
  | some poolId =>
    let reserves (solReserve tokenReserve : U64) (lpSupply : Int) : List NewReservesRow :=
      batches.reserves ++ [newReserves now poolId (asI64 solReserve) (asI64 tokenReserve) lpSupply de]
    match de.event with
    | .poolCreated p =>
      { batches with
        lpSupplyCache := Function.update batches.lpSupplyCache poolId (some (asI64 p.lpSupplyAfter))
        reserves := reserves p.solReserveAfter p.tokenReserveAfter (asI64 p.lpSupplyAfter) }
    | .swapExecuted s =>
      { batches with
        swaps := batches.swaps ++ [newSwap now s poolId de]
        reserves := reserves s.solReserveAfter s.tokenReserveAfter ((batches.lpSupplyCache poolId).getD 0) }
    | .liquidityAdded la =>
      { batches with
        lpSupplyCache := Function.update batches.lpSupplyCache poolId (some (asI64 la.lpSupplyAfter))
        liquidity := batches.liquidity ++ [newLiquidityAdd now la poolId de]
        reserves := reserves la.solReserveAfter la.tokenReserveAfter (asI64 la.lpSupplyAfter) }
    | .liquidityRemoved lr =>
      { batches with
        lpSupplyCache := Function.update batches.lpSupplyCache poolId (some (asI64 lr.lpSupplyAfter))
        liquidity := batches.liquidity ++ [newLiquidityRemove now lr poolId de]
        reserves := reserves lr.solReserveAfter lr.tokenReserveAfter (asI64 lr.lpSupplyAfter) }

/-- The second pass. -/
def batchesOf (now : Int) (poolCache : String → Option Nat) (lpSupplyCache : Nat → Option Int)
    (events : List DecodedEvent) : Batches :=
  events.foldl (Batches.add now poolCache) ⟨lpSupplyCache, [], [], []⟩

def newPools (now : Int) (events : List DecodedEvent) : List NewPoolRow :=
  events.filterMap fun de =>
    match de.event with
    | .poolCreated p => some (newPool now p de)
    | _ => none

/-- Looks up the pools that neither the cache nor this batch knows. -/
def backfillCache (env : Environment) (events : List DecodedEvent) : Job Unit := do
  let session ← get
  let unknown := (events.map fun de => poolPubkey de.event).filter fun pubkey => (session.poolCache pubkey).isNone
  let needed := (unknown.insertionSort (· ≤ ·)).dedup
  if needed.isEmpty then return
  let rows ← statement env .listPools fun db => .ok (db, db.poolList { PoolFilter.all with pubkeys := some needed })
  remember rows

/-- The statements that a block and a page share. -/
def ingest (env : Environment) (events : List DecodedEvent) : Job Written := do
  let rows := newPools env.now events
  let pools ← insertion env .setPools rows (Db.poolSet rows)
  remember pools
  backfillCache env events
  let session ← get
  let batches := batchesOf env.now session.poolCache session.lpSupplyCache events
  modify fun session => { session with lpSupplyCache := batches.lpSupplyCache }
  let reserves ← insertion env .setReserves batches.reserves (Db.reservesSet batches.reserves)
  let swaps ← insertion env .setSwaps batches.swaps (Db.swapSet batches.swaps)
  let liquidity ← insertion env .setLiquidity batches.liquidity (Db.liquiditySet batches.liquidity)
  return { pools, reserves, swaps, liquidity }

/-- By signature, then by place in the transaction. -/
def DecodedEvent.before (a b : DecodedEvent) : Bool :=
  a.signature < b.signature || a.signature == b.signature && a.innerIxIdx ≤ b.innerIxIdx

def writeBlock (env : Environment) (batch : BlockBatch) : Job Written :=
  transaction do
    notice env .begin
    let events := batch.events.insertionSort (DecodedEvent.before · ·)
    let written ← ingest env events
    statement env .setCheckpoint fun db => .ok ({ db with checkpoint := some (asI64 batch.slot) }, ())
    notice env .commit
    return written

/-- By slot first. -/
def DecodedEvent.earlier (a b : DecodedEvent) : Bool :=
  a.slot < b.slot || a.slot == b.slot && a.before b

/-- The number of inserted rows. A page never moves the checkpoint. -/
def applyPage (env : Environment) (events : List DecodedEvent) : Job Nat :=
  if events.isEmpty then return 0
  else
    transaction do
      let events := events.insertionSort (DecodedEvent.earlier · ·)
      notice env .begin
      let written ← ingest env events
      notice env .commit
      return written.pools.length + written.reserves.length + written.swaps.length + written.liquidity.length

inductive BroadcastFrame where
  | pool (row : Stored NewPoolRow)
  | swap (row : Stored NewSwapRow)
  | liquidity (row : Stored NewLiquidityRow)
  | reserves (row : Stored NewReservesRow)

def Written.frames (written : Written) : List BroadcastFrame :=
  written.pools.map .pool ++ written.reserves.map .reserves ++ written.swaps.map .swap ++ written.liquidity.map .liquidity

/-- One turn of `run_writer`: a failed block is logged and the loop goes on. -/
def receive (env : Environment) (batch : BlockBatch) (session : Session) : Session × Option Written :=
  match writeBlock env batch session with
  | .ok written after => (after, some written)
  | .error _ after => (after, none)

end DeepPool.Indexer
