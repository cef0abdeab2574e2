import DeepPool.Indexer.Writer

/-! The live indexer over a chain of blocks (`main.rs`, `run_writer`): blocks arrive in
slot order, a write may fail, and a restarted process resumes `reorg_buffer_slots` before
the checkpoint. -/

namespace DeepPool.Indexer
open Library

def DecodedEvent.creates (de : DecodedEvent) : Bool :=
  match de.event with
  | .poolCreated _ => true
  | _ => false

/-- Slots grow, and a pool's creation comes no later than any of its events. -/
structure Feed where
  blocks : List BlockBatch
  ordered : blocks.Pairwise fun earlier later => earlier.slot.val < later.slot.val
  created : blocks.Pairwise fun earlier later => ∀ de ∈ earlier.events, ∀ creation ∈ later.events,
    creation.creates → poolPubkey creation.event ≠ poolPubkey de.event

/-- The process, the next block it will receive, and the history that only the observer
keeps: every block ever delivered, and those whose write failed since the last start. -/
structure World where
  session : Session
  next : Nat
  delivered : List Nat
  failed : List Nat

/-- Where the stream starts: at `last_processed_slot - reorg_buffer_slots`, or at the
current tip where that is zero. -/
def Feed.resume (feed : Feed) (reorgBufferSlots : U64) (tip : Nat) (db : Db) : Nat :=
  let resumeSlot := db.lastProcessedSlot.saturatingSub reorgBufferSlots
  if 0 < resumeSlot.val then feed.blocks.findIdx fun block => resumeSlot.val ≤ block.slot.val else tip

def World.start (feed : Feed) (reorgBufferSlots : U64) (tip : Nat) (delivered : List Nat) (db : Db) : World :=
  ⟨.load db, feed.resume reorgBufferSlots tip db, delivered, []⟩

inductive Turn where
  | deliver (env : Environment)
  | restart (tip : Nat)

inductive LiveError where
  | exhausted
  | untimely
  deriving DecidableEq

def World.turn (feed : Feed) (reorgBufferSlots : U64) (world : World) : Turn → Except LiveError (World × Option Written)
  | .deliver env =>
    match feed.blocks[world.next]? with
    | none => .error .exhausted
    | some batch =>
      let (session, written) := receive env batch world.session
      .ok ({
        session
        next := world.next + 1
        delivered := world.next :: world.delivered
        failed := if written.isSome then world.failed else world.next :: world.failed }, written)
  | .restart tip => .ok (.start feed reorgBufferSlots tip world.delivered world.session.db, none)

/-! What the checkpoint promises, and the condition under which it is kept. -/

/-- The event's row is in the table of its kind, and its reserves are recorded. -/
def Db.Commits (db : Db) (de : DecodedEvent) : Prop :=
  db.reserves.Holds de.key ∧
    match de.event with
    | .poolCreated _ => db.pools.Holds (poolPubkey de.event)
    | .swapExecuted _ => db.swaps.Holds de.key
    | .liquidityAdded _ => db.liquidityEvents.Holds de.key
    | .liquidityRemoved _ => db.liquidityEvents.Holds de.key

/-- The creation of the event's pool is among the blocks delivered so far. -/
def World.Knows (feed : Feed) (world : World) (de : DecodedEvent) : Prop :=
  ∃ index ∈ world.delivered, ∃ batch, feed.blocks[index]? = some batch ∧
    ∃ creation ∈ batch.events, creation.creates ∧ poolPubkey creation.event = poolPubkey de.event

/-- Whatever lies more than the buffer behind the checkpoint is stored. -/
def World.Covered (feed : Feed) (reorgBufferSlots : U64) (world : World) : Prop :=
  ∀ index ∈ world.delivered, ∀ batch, feed.blocks[index]? = some batch →
    batch.slot.val + reorgBufferSlots.val < world.session.db.lastProcessedSlot.val →
      ∀ de ∈ batch.events, world.Knows feed de → world.session.db.Commits de

/-- The blocks with events whose write failed since the last start. -/
def World.missed (feed : Feed) (world : World) : List BlockBatch :=
  (world.failed.filterMap fun index => feed.blocks[index]?).filter fun batch => !batch.events.isEmpty

/-- A block is not committed more than the buffer after a failed one, and a process that
would resume at the tip leaves nothing behind. -/
def World.Timely (feed : Feed) (reorgBufferSlots : U64) (world : World) (turn : Turn) (written : Option Written) : Prop :=
  match turn with
  | .deliver _ => written.isSome → ∀ batch ∈ world.missed feed,
    (feed.blocks[world.next]?).elim 0 (·.slot.val) ≤ batch.slot.val + reorgBufferSlots.val
  | .restart _ => reorgBufferSlots.val < world.session.db.lastProcessedSlot.val ∨
    (world.missed feed).isEmpty ∧ ∀ index ∈ world.delivered, index < world.next

instance (feed : Feed) (reorgBufferSlots : U64) (world : World) (turn : Turn) (written : Option Written) :
    Decidable (world.Timely feed reorgBufferSlots turn written) :=
  match turn with
  | .deliver _ => inferInstanceAs (Decidable (_ → _))
  | .restart _ => inferInstanceAs (Decidable (_ ∨ _))

end DeepPool.Indexer
