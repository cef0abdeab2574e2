import DeepPool.Indexer.Writer
import DeepPool.Library.Query

/-! The event bus of the SDK (`bus.ts`) and what serves it: the socket sessions (`api.rs`), the
broadcast channel (`contracts.rs`) and the history queries (`domain/swap.rs`, `domain/liquidity.rs`). -/

namespace DeepPool.Indexer

deriving instance DecidableEq for BroadcastFrame

inductive BroadcastKind where
  | pool
  | swap
  | liquidity
  | reserves
  deriving DecidableEq

namespace BroadcastFrame

def kind : BroadcastFrame → BroadcastKind
  | pool _ => .pool
  | swap _ => .swap
  | liquidity _ => .liquidity
  | reserves _ => .reserves

def createdAt : BroadcastFrame → Int
  | pool row => row.data.createdAt
  | swap row => row.data.createdAt
  | liquidity row => row.data.createdAt
  | reserves row => row.data.createdAt

end BroadcastFrame

/-- `BROADCAST_CAPACITY` -/
def broadcastCapacity : Nat := 1024

/-- One `ws_session`: not running yet, running with the frames that its receiver has not taken, or over. -/
inductive Subscription where
  | waiting
  | live (queue : List BroadcastFrame)
  | ended

end DeepPool.Indexer

namespace DeepPool.Sdk
open Library Indexer

/-- `GAP_FILL_LIMIT` -/
def gapFillLimit : Nat := 500

/-- `BusInternal`, with every call of a handler. -/
structure Bus where
  closed : Bool
  hasEverConnected : Bool
  lastSeenAt : Option Int
  seenPoolIds : List Nat
  handlers : BroadcastKind → List Nat
  calls : List (Nat × BroadcastFrame)

def createIndexerBus : Bus := ⟨false, false, none, [], fun _ => [], []⟩

def Bus.handleFrame (bus : Bus) (frame : BroadcastFrame) : Bus where
  closed := bus.closed
  hasEverConnected := bus.hasEverConnected
  lastSeenAt := if ∀ seen ∈ bus.lastSeenAt, seen < frame.createdAt then some frame.createdAt else bus.lastSeenAt
  seenPoolIds :=
    match frame with
    | .pool row => row.id :: bus.seenPoolIds
    | _ => bus.seenPoolIds
  handlers := bus.handlers
  calls := bus.calls ++ (bus.handlers frame.kind).map fun handler => (handler, frame)

/-- `.sort((a, b) => a.created_at.localeCompare(b.created_at)).forEach(handleFrame)` -/
def Bus.replay (bus : Bus) (rows : List BroadcastFrame) : Bus :=
  (rows.insertionSort (ascending BroadcastFrame.createdAt)).foldl Bus.handleFrame bus

def Bus.on (bus : Bus) (kind : BroadcastKind) (handler : Nat) : Bus :=
  if handler ∈ bus.handlers kind then bus
  else { bus with handlers := Function.update bus.handlers kind (bus.handlers kind ++ [handler]) }

/-- What `on` returns. -/
def Bus.off (bus : Bus) (kind : BroadcastKind) (handler : Nat) : Bus :=
  { bus with handlers := Function.update bus.handlers kind ((bus.handlers kind).filter (· ≠ handler)) }

/-- `!state.seenPoolIds.has(p.pool_id)` -/
def Bus.unseen (bus : Bus) : BroadcastFrame → Bool
  | .pool row => row.id ∉ bus.seenPoolIds
  | _ => true

def Bus.close (bus : Bus) : Bus := { bus with closed := true, handlers := fun _ => [] }

/-- The requests of `gapFill`, one after the other. -/
inductive FillStage where
  | swaps
  | liquidity
  | pools
  | done
  deriving DecidableEq

def FillStage.kind : FillStage → BroadcastKind
  | swaps => .swap
  | liquidity => .liquidity
  | _ => .pool

def FillStage.next : FillStage → FillStage
  | swaps => .liquidity
  | liquidity => .pools
  | _ => .done

/-- The rows that a request is about. -/
def FillStage.table (db : Db) : FillStage → List BroadcastFrame
  | swaps => db.swaps.rows.map .swap
  | liquidity => db.liquidityEvents.rows.map .liquidity
  | pools => (db.poolList .all).map .pool
  | done => []

/-- One run of `gapFill`. The observer notes which requests failed, the rows committed when the
bus reconnected, those committed when their table was queried, and those of them that the
answer need not have. -/
structure Fill where
  since : Option Int
  stage : FillStage
  answer : Option (List BroadcastFrame)
  failed : Bool
  known : List BroadcastFrame
  covered : List BroadcastFrame
  exposed : List BroadcastFrame

/-- Without a reference point there is nothing to fill. -/
def Fill.start (lastSeenAt : Option Int) (committed : List BroadcastFrame) : Fill where
  since := lastSeenAt
  stage := if lastSeenAt.isSome then .swaps else .done
  answer := none
  failed := false
  known := committed
  covered := if lastSeenAt.isSome then [] else committed
  exposed := if lastSeenAt.isSome then [] else committed

/-- `WHERE created_at > since` -/
def newerThan (since : Option Int) (table : List BroadcastFrame) : List BroadcastFrame :=
  table.filter fun row => ∃ time ∈ since, time < row.createdAt

/-- What the server may answer. -/
def FillStage.Allows (since : Option Int) (table rows : List BroadcastFrame) : FillStage → Prop
  | swaps => Top BroadcastFrame.createdAt gapFillLimit (newerThan since table) rows
  | liquidity => Top BroadcastFrame.createdAt gapFillLimit (newerThan since table) rows
  | pools => rows = table
  | done => False

instance (since : Option Int) (table rows : List BroadcastFrame) : (stage : FillStage) →
    Decidable (stage.Allows since table rows)
  | .swaps => inferInstanceAs (Decidable (Top ..))
  | .liquidity => inferInstanceAs (Decidable (Top ..))
  | .pools => inferInstanceAs (Decidable (rows = table))
  | .done => inferInstanceAs (Decidable False)

/-- The answer has the row of the table, however ties are broken. -/
def Fill.Reaches (fill : Fill) (table : List BroadcastFrame) (row : BroadcastFrame) : Prop :=
  (∃ time ∈ fill.since, time < row.createdAt) ∧ (table.filter (row.createdAt ≤ ·.createdAt)).length ≤ gapFillLimit

instance (fill : Fill) (table : List BroadcastFrame) (row : BroadcastFrame) : Decidable (fill.Reaches table row) :=
  inferInstanceAs (Decidable (_ ∧ _))

inductive Exchange where
  | query (rows : List BroadcastFrame)
  | respond
  | fail

/-- One step of a gap-fill: a query is run, its answer arrives, or the request fails. -/
def Fill.exchange (fill : Fill) (db : Db) (committed : List BroadcastFrame) (bus : Bus) : Exchange → Option (Fill × Bus)
  | .query rows =>
    let table := fill.stage.table db
    let asked := committed.filter (·.kind = fill.stage.kind)
    if fill.answer.isNone ∧ fill.stage.Allows fill.since table rows then
      some ({ fill with
        answer := some rows
        covered := fill.covered ++ asked
        exposed := fill.exposed ++ asked.filter (¬ fill.Reaches table ·) }, bus)
    else none
  | .respond =>
    fill.answer.map fun rows =>
      ({ fill with stage := fill.stage.next, answer := none }, bus.replay (rows.filter bus.unseen))
  | .fail =>
    if fill.stage = .done then none
    else some ({ fill with stage := fill.stage.next, answer := none, failed := true }, bus)

/-- The socket of the client, with the frames that were sent and have not arrived. -/
structure Link where
  opened : Bool
  subscription : Subscription
  wire : List BroadcastFrame

/-- The indexer and one bus, with the gap-fill of the last reconnect and those of earlier ones
that still run. The observer notes the swap and liquidity rows committed since the first
connection, and the handlers subscribed ever since. -/
structure BusWorld where
  writer : Session
  unpublished : List BroadcastFrame
  link : Option Link
  bus : Bus
  fill : Option Fill
  stale : List Fill
  committed : List BroadcastFrame
  loyal : BroadcastKind → List Nat

inductive BusTurn where
  | commit (env : Environment) (batch : BlockBatch)
  | publish
  | dial
  | subscribe
  | opens
  | recv
  | hangUp
  | message
  | closes
  | exchange (step : Exchange)
  | linger (index : Nat) (step : Exchange)
  | on (kind : BroadcastKind) (handler : Nat)
  | off (kind : BroadcastKind) (handler : Nat)
  | close

inductive BusError where
  | impossible
  | careless
  deriving DecidableEq

namespace BusWorld

def start (writer : Session) : BusWorld := ⟨writer, [], none, createIndexerBus, none, [], [], fun _ => []⟩

/-- What the receiver of the running session has not taken. -/
def queue (world : BusWorld) : List BroadcastFrame :=
  match world.link with
  | some ⟨_, .live queue, _⟩ => queue
  | _ => []

def wire (world : BusWorld) : List BroadcastFrame := world.link.elim [] Link.wire

/-- What the present connection may still bring. -/
def inFlight (world : BusWorld) : List BroadcastFrame := world.unpublished ++ world.queue ++ world.wire

/-- Every handler that was subscribed throughout was called with the row. -/
def Dispatched (world : BusWorld) (row : BroadcastFrame) : Prop :=
  ∀ handler ∈ world.loyal row.kind, (handler, row) ∈ world.bus.calls

instance (world : BusWorld) (row : BroadcastFrame) : Decidable (world.Dispatched row) :=
  inferInstanceAs (Decidable (∀ handler ∈ world.loyal row.kind, (handler, row) ∈ world.bus.calls))

/-- The rows that the connections did not bring. -/
def lost (world : BusWorld) : List BroadcastFrame :=
  world.committed.filter fun row => ¬ world.Dispatched row ∧ row ∉ world.inFlight

def turn (world : BusWorld) : BusTurn → Except BusError (BusWorld × Unit)
  | .commit env batch =>
    if world.unpublished = [] then
      let (writer, written) := receive env batch world.writer
      let frames := written.elim [] Written.frames
      let rows := frames.filter fun frame => frame.kind = .swap ∨ frame.kind = .liquidity
      .ok ({ world with
        writer
        unpublished := frames
        committed := if world.bus.hasEverConnected then world.committed ++ rows else world.committed }, ())
    else .error .impossible
  | .publish =>
    match world.unpublished, world.link with
    | [], _ => .error .impossible
    | frame :: rest, some ⟨opened, .live queue, wire⟩ =>
      .ok ({ world with unpublished := rest, link := some ⟨opened, .live (queue ++ [frame]), wire⟩ }, ())
    | _ :: rest, _ => .ok ({ world with unpublished := rest }, ())
  | .dial =>
    if world.link.isNone ∧ ¬ world.bus.closed then .ok ({ world with link := some ⟨false, .waiting, []⟩ }, ())
    else .error .impossible
  | .subscribe =>
    match world.link with
    | some ⟨opened, .waiting, wire⟩ => .ok ({ world with link := some ⟨opened, .live [], wire⟩ }, ())
    | _ => .error .impossible
  | .opens =>
    match world.link with
    | some ⟨false, subscription, wire⟩ =>
      let opened := { world with
        link := some ⟨true, subscription, wire⟩
        bus := { world.bus with hasEverConnected := true } }
      .ok (if world.bus.hasEverConnected then { opened with
          fill := some (.start world.bus.lastSeenAt world.committed)
          stale := world.stale ++ world.fill.toList }
        else { opened with loyal := world.bus.handlers }, ())
    | _ => .error .impossible
  | .recv =>
    match world.link with
    | some ⟨opened, .live queue, wire⟩ =>
      if broadcastCapacity < queue.length then
        .ok ({ world with link := some ⟨opened, .live (queue.drop (queue.length - broadcastCapacity)), wire⟩ }, ())
      else
        match queue with
        | [] => .error .impossible
        | frame :: rest => .ok ({ world with link := some ⟨opened, .live rest, wire ++ [frame]⟩ }, ())
    | _ => .error .impossible
  | .hangUp =>
    match world.link with
    | some ⟨opened, .live _, wire⟩ => .ok ({ world with link := some ⟨opened, .ended, wire⟩ }, ())
    | _ => .error .impossible
  | .message =>
    match world.link with
    | some ⟨true, subscription, frame :: rest⟩ =>
      .ok ({ world with link := some ⟨true, subscription, rest⟩, bus := world.bus.handleFrame frame }, ())
    | _ => .error .impossible
  | .closes => if world.link.isSome then .ok ({ world with link := none }, ()) else .error .impossible
  | .exchange step =>
    match world.fill.bind fun fill => fill.exchange world.writer.db world.committed world.bus step with
    | some (fill, bus) => .ok ({ world with fill := some fill, bus }, ())
    | none => .error .impossible
  | .linger index step =>
    match world.stale[index]?.bind fun fill => fill.exchange world.writer.db world.committed world.bus step with
    | some (fill, bus) => .ok ({ world with stale := world.stale.set index fill, bus }, ())
    | none => .error .impossible
  | .on kind handler => .ok ({ world with bus := world.bus.on kind handler }, ())
  | .off kind handler =>
    .ok ({ world with
      bus := world.bus.off kind handler
      loyal := Function.update world.loyal kind ((world.loyal kind).filter (· ≠ handler)) }, ())
  | .close => .ok ({ world with bus := world.bus.close, loyal := fun _ => [] }, ())

/-! What the reconnects promise, and the condition under which they keep it. -/

/-- After the requests of the last reconnect every row committed before it, or before the query of
its table, has been dispatched. -/
def Caught (world : BusWorld) : Prop :=
  ∀ fill ∈ world.fill, fill.stage = .done → fill.failed = false → ∀ row, row ∈ fill.known ∨ row ∈ fill.covered →
    world.Dispatched row

/-- The frames that a turn takes from the connection without a call. -/
def drops (world : BusWorld) : BusTurn → List BroadcastFrame
  | .publish =>
    match world.link with
    | some ⟨_, .live _, _⟩ => []
    | _ => world.unpublished.take 1
  | .recv => world.queue.take (world.queue.length - broadcastCapacity)
  | .hangUp => world.queue
  | .closes => world.queue ++ world.wire
  | _ => []

/-- No row is dropped that the last gap-fill left to the connection. -/
def Spares (world : BusWorld) (turn : BusTurn) : Prop :=
  ∀ row ∈ world.drops turn, ∀ fill ∈ world.fill, fill.failed = false → row ∈ fill.exposed → world.Dispatched row

/-- A gap-fill reaches all rows that are lost when it asks. Without a reference point nothing was missed. -/
def Reaches (world : BusWorld) : BusTurn → Prop
  | .opens => world.bus.hasEverConnected = true → world.bus.lastSeenAt = none →
    ∀ row ∈ world.committed, world.loyal row.kind = []
  | .exchange (.query _) => ∀ fill ∈ world.fill, fill.failed = false → ∀ row ∈ world.lost,
    row.kind = fill.stage.kind → fill.Reaches (fill.stage.table world.writer.db) row
  | _ => True

/-- What the gap-fill left to the connection has arrived before the last answer. -/
def Lands (world : BusWorld) : BusTurn → Prop
  | .exchange .respond => ∀ fill ∈ world.fill, fill.stage = .pools → fill.failed = false →
    ∀ row ∈ fill.exposed, row ∈ world.inFlight → world.Dispatched row
  | _ => True

instance (world : BusWorld) (turn : BusTurn) : Decidable (world.Spares turn) :=
  inferInstanceAs (Decidable (∀ row ∈ world.drops turn, ∀ fill ∈ world.fill, fill.failed = false →
    row ∈ fill.exposed → world.Dispatched row))

instance (world : BusWorld) : (turn : BusTurn) → Decidable (world.Reaches turn)
  | .opens => inferInstanceAs (Decidable (_ → _ → _))
  | .exchange (.query _) => inferInstanceAs (Decidable (∀ fill ∈ world.fill, fill.failed = false → ∀ row ∈ world.lost,
      row.kind = fill.stage.kind → fill.Reaches (fill.stage.table world.writer.db) row))
  | .exchange .respond | .exchange .fail | .commit _ _ | .publish | .dial | .subscribe | .recv | .hangUp | .message
  | .closes | .linger _ _ | .on _ _ | .off _ _ | .close => .isTrue trivial

instance (world : BusWorld) : (turn : BusTurn) → Decidable (world.Lands turn)
  | .exchange .respond => inferInstanceAs (Decidable (∀ fill ∈ world.fill, fill.stage = .pools → fill.failed = false →
      ∀ row ∈ fill.exposed, row ∈ world.inFlight → world.Dispatched row))
  | .exchange (.query _) | .exchange .fail | .commit _ _ | .publish | .dial | .subscribe | .opens | .recv | .hangUp
  | .message | .closes | .linger _ _ | .on _ _ | .off _ _ | .close => .isTrue trivial

end BusWorld
end DeepPool.Sdk
