import DeepPool.View
import DeepPool.Indexer.Confirmed
import DeepPool.Indexer.Wire

/-! Runs of the program as the chain records them: blocks of transactions, each of which
takes all of its actions or, where it failed, none. Events write a key in 32 bytes. -/

namespace DeepPool.Indexer
open Library

variable {Key : Type}

structure Execution (Key : Type) where
  tx : ConfirmedTransaction
  actions : List (Program.Action Key)

structure ExecutedBlock (Key : Type) where
  slot : U64
  blockTime : Option Int
  executions : List (Execution Key)

def ExecutedBlock.confirmed (block : ExecutedBlock Key) : ConfirmedBlock where
  slot := block.slot
  blockTime := block.blockTime
  transactions := block.executions.map Execution.tx

/-- The block as the live writer receives it. -/
def ExecutedBlock.batch (program : Pubkey) (block : ExecutedBlock Key) : BlockBatch :=
  decodeBlock .compute program.toList block.confirmed.update

section Steps
variable [DecidableEq Key] (derive : Derivation Key) (rents : Rents Key)

def Execution.perform (world : DeepPool.World Key) (execution : Execution Key) :
    Except Program.Refusal (DeepPool.World Key × Program.Trace Key) :=
  if execution.tx.err.isNone then execute (Program.step derive rents) world execution.actions else .ok (world, [])

/-- A block comes in a later slot than all before it. -/
def ExecutedBlock.perform (world : DeepPool.World Key) (block : ExecutedBlock Key) :
    Except Program.Refusal (DeepPool.World Key × List (Execution Key × Program.Trace Key)) :=
  if world.slot.val < block.slot.val then
    execute (Execution.perform derive rents) { world with slot := block.slot } block.executions
  else .error (.program .system)

end Steps

/-- What the instructions that a transaction made to the program carry under the tag of its events. -/
def ConfirmedTransaction.emissions (program : Pubkey) (tx : ConfirmedTransaction) : List Bytes :=
  (tx.innerInstructions.flatten.filter fun ix =>
    tx.keys.findIdx? (· == program) == some ix.programIdIndex.toNat && eventIxTagLe.isPrefixOf ix.data).map (·.data)

/-- Blocks and what each of their transactions did. -/
abbrev Annals (Key : Type) := List (ExecutedBlock Key × List (Execution Key × Program.Trace Key))

/-- Every event of the run, with its place in it. -/
def Annals.trace (annals : Annals Key) : Program.Trace Key :=
  annals.flatMap fun (block, performed) => (.advance block.slot, none) :: performed.flatMap Prod.snd

def Annals.events (annals : Annals Key) : List (DeepPool.DeepPoolEvent Key) := annals.trace.filterMap Prod.snd

/-- No two transactions have one signature, and no two pools one address. The inner
instructions of a transaction that succeeded show the events it emitted; those of a failed
one show none. -/
structure Executed [DecidableEq Key] (derive : Derivation Key) (rents : Rents Key) (bytes : Key → Pubkey)
    (program : Pubkey) (start : DeepPool.World Key) (annals : Annals Key) (after : DeepPool.World Key) : Prop where
  runs : Run (ExecutedBlock.perform derive rents) start annals after
  signed : ((annals.flatMap fun (block, _) => block.executions).map fun execution => execution.tx.signature).Nodup
  addressed : ∀ first ∈ annals.events, ∀ second ∈ annals.events,
    bytes first.pool = bytes second.pool → first.pool = second.pool
  shown : ∀ entry ∈ annals, ∀ performed ∈ entry.2, performed.1.tx.emissions program =
    (performed.2.filterMap Prod.snd).map fun event => eventBytes .compute (event.rename bytes)

end DeepPool.Indexer
