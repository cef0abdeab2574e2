import DeepPool.Indexer.Grpc

/-! The subscriber (`stream/grpc.rs`): one connection after the other, each asking for
the blocks from the slot that `run_subscriber` keeps. -/

namespace DeepPool.Indexer
open Library

inductive UpdateOneof where
  | block (block : SubscribeUpdateBlock)
  | ping
  | pong
  | other

/-- `effective_from_slot`: slot zero asks for the current tip. -/
def effectiveFromSlot (fromSlot : U64) : Option U64 := if 0 < fromSlot.val then some fromSlot else none

/-- The batches that reach the writer's channel, and how the call ends: with its stream,
with an error of the setup or the stream, or early, when nobody reads the channel. -/
def subscribeOnce (discs : Discriminators) (programBytes : Bytes) (taken : BlockBatch → Bool) :
    List UpdateOneof → Except String Unit → List BlockBatch × Except String Unit
  | [], ending => ([], ending)
  | .block block :: updates, ending =>
    let batch := decodeBlock discs programBytes block
    if taken batch then
      let (sent, result) := subscribeOnce discs programBytes taken updates ending
      (batch :: sent, result)
    else ([], .ok ())
  | .ping :: updates, ending => subscribeOnce discs programBytes taken updates ending
  | .pong :: updates, ending => subscribeOnce discs programBytes taken updates ending
  | .other :: updates, ending => subscribeOnce discs programBytes taken updates ending

/-- The text of the rejection of a slot that the server no longer retains. -/
def outOfRetention (chain : String) : Bool :=
  decide ("older than the oldest available slot".toList <:+: chain.toList)

/-- What the loop of `run_subscriber` makes of the end of a connection. -/
def resumeAfter (currentResume : U64) : Except String Unit → U64
  | .ok () => currentResume
  | .error chain => if outOfRetention chain then 0 else currentResume

/-! The server and the runs of the loop. -/

structure BlockServer where
  blocks : List SubscribeUpdateBlock
  ordered : blocks.Pairwise fun earlier later => earlier.slot.val < later.slot.val

/-- The first block of a connection that asks for a slot, or for the tip. -/
def BlockServer.first (server : BlockServer) (fromSlot : Option U64) (tip : Nat) : Nat :=
  match fromSlot with
  | some slot => server.blocks.findIdx fun block => slot.val ≤ block.slot.val
  | none => tip

def UpdateOneof.block? : UpdateOneof → Option SubscribeUpdateBlock
  | .block found => some found
  | _ => none

def blocksOf (updates : List UpdateOneof) : List SubscribeUpdateBlock := updates.filterMap UpdateOneof.block?

/-- What one connection receives until it ends: every block from the first one on, in
slot order. -/
structure Connection (server : BlockServer) where
  tip : Nat
  start : Nat
  updates : List UpdateOneof
  ending : Except String Unit
  ordered : blocksOf updates <+: server.blocks.drop start

/-- The loop's variable and the channel, and the positions of all delivered blocks, which
only the observer keeps. -/
structure Subscriber where
  currentResume : U64
  channel : List BlockBatch
  delivered : List Nat

def Subscriber.start (resumeSlot : U64) : Subscriber := ⟨resumeSlot, [], []⟩

inductive SubscriberError where
  | unserved
  | late
  deriving DecidableEq

section Loop
variable {server : BlockServer}

def Connection.positions (connection : Connection server) : List Nat :=
  List.range' connection.start (blocksOf connection.updates).length

/-- One turn of the loop, while the writer reads the channel. The tip never falls behind
a delivered block. -/
def Subscriber.connect (discs : Discriminators) (programBytes : Bytes) (subscriber : Subscriber)
    (connection : Connection server) : Except SubscriberError (Subscriber × List BlockBatch) :=
  if connection.start = server.first (effectiveFromSlot subscriber.currentResume) connection.tip ∧
      ∀ position ∈ subscriber.delivered, position ≤ connection.tip then
    let (sent, result) := subscribeOnce discs programBytes (fun _ => true) connection.updates connection.ending
    .ok ({
      currentResume := resumeAfter subscriber.currentResume result
      channel := subscriber.channel ++ sent
      delivered := subscriber.delivered ++ connection.positions }, sent)
  else .error .unserved

/-- Every block between two delivered ones was sent to the writer. -/
def Subscriber.Unbroken (discs : Discriminators) (programBytes : Bytes) (server : BlockServer) (subscriber : Subscriber) :
    Prop :=
  ∀ early ∈ subscriber.delivered, ∀ late ∈ subscriber.delivered, ∀ position, early ≤ position → position ≤ late →
    ∀ block, server.blocks[position]? = some block → decodeBlock discs programBytes block ∈ subscriber.channel

/-- A connection at the tip finds it at most one block past a delivered one. -/
def Subscriber.Prompt (subscriber : Subscriber) (connection : Connection server) (_ : List BlockBatch) : Prop :=
  0 < subscriber.currentResume.val ∨ subscriber.delivered = [] ∨ blocksOf connection.updates = [] ∨
    ∃ last ∈ subscriber.delivered, connection.tip ≤ last + 1

instance (subscriber : Subscriber) (connection : Connection server) (sent : List BlockBatch) :
    Decidable (subscriber.Prompt connection sent) := inferInstanceAs (Decidable (_ ∨ _ ∨ blocksOf _ = [] ∨ _))

end Loop
end DeepPool.Indexer
