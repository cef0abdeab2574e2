import DeepPool.Indexer.Live
import DeepPool.Library.Transition

/-! Delivery passes over a fixed chain. A pass delivers consecutive blocks and may stop
anywhere; the next one starts no later than one past the last delivered block, with the
caches as they are or reloaded. -/

namespace DeepPool.Indexer
open Library

/-- A chain as the stream shows it. Every event carries the slot and the time of its
block, no two events share a key, and the slots fit the signed columns. -/
structure Chronicle extends Feed where
  placed : ∀ batch ∈ blocks, ∀ de ∈ batch.events, de.slot = asI64 batch.slot
  timed : ∀ batch ∈ blocks, ∀ de ∈ batch.events, de.blockTime.isSome
  keyed : ((blocks.flatMap BlockBatch.events).map DecodedEvent.key).Nodup
  fits : ∀ batch ∈ blocks, batch.slot.val < 2 ^ 63

/-- The members at the given positions, in their order. -/
def pick {Item : Type} (positions : List Nat) (items : List Item) : List Item :=
  (items.zipIdx.filter fun entry => entry.2 ∈ positions).map Prod.fst

theorem pick_sublist {Item : Type} (positions : List Nat) (items : List Item) : (pick positions items).Sublist items := by
  have whole : items.zipIdx.map Prod.fst = items := List.zipIdx_map_fst _ _
  have kept := (List.filter_sublist (p := fun entry => decide (entry.2 ∈ positions)) (l := items.zipIdx)).map Prod.fst
  rw [whole] at kept
  exact kept

/-- The chain of the blocks at the given positions. -/
def Chronicle.only (chain : Chronicle) (positions : List Nat) : Chronicle where
  blocks := pick positions chain.blocks
  ordered := chain.ordered.sublist (pick_sublist positions chain.blocks)
  created := chain.created.sublist (pick_sublist positions chain.blocks)
  placed := fun batch member => chain.placed batch ((pick_sublist positions chain.blocks).subset member)
  timed := fun batch member => chain.timed batch ((pick_sublist positions chain.blocks).subset member)
  keyed := chain.keyed.sublist (((pick_sublist positions chain.blocks).flatMap _).map _)
  fits := fun batch member => chain.fits batch ((pick_sublist positions chain.blocks).subset member)

/-- The process, the next block it will receive, and the positions delivered so far,
oldest delivery first. -/
structure Replay where
  session : Session
  next : Nat
  deliveries : List Nat

def Replay.start : Replay := ⟨.load .empty, 0, []⟩

inductive ReplayTurn where
  | deliver (env : Environment)
  | resume (start : Nat) (restarts : Bool)

inductive ReplayError where
  | exhausted
  | failed
  | skipped
  deriving DecidableEq

/-- A write that succeeds. -/
def Session.write (session : Session) : Environment × BlockBatch → Except ReplayError (Session × Written)
  | (env, batch) =>
    match receive env batch session with
    | (after, some written) => .ok (after, written)
    | (_, none) => .error .failed

def Replay.turn (feed : Feed) (replay : Replay) : ReplayTurn → Except ReplayError (Replay × Option Written)
  | .deliver env =>
    match feed.blocks[replay.next]? with
    | none => .error .exhausted
    | some batch => do
      let (session, written) ← replay.session.write (env, batch)
      return (⟨session, replay.next + 1, replay.deliveries ++ [replay.next]⟩, some written)
  | .resume start restarts =>
    if ∀ last ∈ replay.deliveries.getLast?, start ≤ last + 1 then
      .ok (⟨if restarts then .load replay.session.db else replay.session, start, replay.deliveries⟩, none)
    else .error .skipped

/-! What the passes are compared by. -/

/-- The rows of the four tables as they are published. -/
def Db.frames (db : Db) : List BroadcastFrame :=
  db.pools.rows.map .pool ++ db.reserves.rows.map .reserves ++ db.swaps.rows.map .swap ++
    db.liquidityEvents.rows.map .liquidity

def NewReservesRow.readdress (poolId : Nat) (row : NewReservesRow) : NewReservesRow := { row with poolId }
def NewSwapRow.readdress (poolId : Nat) (row : NewSwapRow) : NewSwapRow := { row with poolId }
def NewLiquidityRow.readdress (poolId : Nat) (row : NewLiquidityRow) : NewLiquidityRow := { row with poolId }

/-- The rows of one database are those of the other when its pools are renamed. -/
structure Db.Renames (rename : Nat → Nat) (db other : Db) : Prop where
  pools : (db.pools.rows.map fun row => (rename row.id, row.data)).Perm
    (other.pools.rows.map fun row => (row.id, row.data))
  reserves : (db.reserves.rows.map fun row => row.data.readdress (rename row.data.poolId)).Perm
    (other.reserves.rows.map Stored.data)
  swaps : (db.swaps.rows.map fun row => row.data.readdress (rename row.data.poolId)).Perm
    (other.swaps.rows.map Stored.data)
  liquidity : (db.liquidityEvents.rows.map fun row => row.data.readdress (rename row.data.poolId)).Perm
    (other.liquidityEvents.rows.map Stored.data)

/-- The same contents up to the serial ids. -/
def Db.SameContents (db other : Db) : Prop := ∃ rename, db.Renames rename other

/-- Every delivered event of a pool whose creation was delivered was delivered once when
the creation had been, or with it. -/
def Replay.Settled (feed : Feed) (replay : Replay) : Prop :=
  ∀ index ∈ replay.deliveries, ∀ batch, feed.blocks[index]? = some batch → ∀ de ∈ batch.events,
    ∀ first ∈ replay.deliveries, ∀ creator, feed.blocks[first]? = some creator → ∀ creation ∈ creator.events,
      creation.creates → poolPubkey creation.event = poolPubkey de.event →
        index ∈ replay.deliveries.dropWhile (· ≠ first)

end DeepPool.Indexer
