import DeepPool.Indexer.Base58
import DeepPool.Indexer.Decoder

/-! The live subscriber's reading of one block (`stream/grpc.rs`). -/

namespace DeepPool.Indexer
open Library

/-- `DateTime::from_timestamp(seconds, 0)` refuses years that do not fit. -/
def fromTimestamp (seconds : Int) : Option Int :=
  if -8334601228800 ≤ seconds ∧ seconds ≤ 8210266876799 then some seconds else none

/-! The parts of the protobuf messages that reach the subscriber. -/

structure CompiledInstruction where
  programIdIndex : UInt32
  data : Bytes

structure Message where
  accountKeys : List Bytes
  instructions : List CompiledInstruction

structure Transaction where
  signatures : List Bytes
  message : Option Message

/-- `err` is there for every transaction that failed. -/
structure TransactionStatusMeta where
  err : Option Bytes
  innerInstructions : List (List CompiledInstruction)
  loadedWritableAddresses : List Bytes
  loadedReadonlyAddresses : List Bytes

structure SubscribeUpdateTransactionInfo where
  transaction : Option Transaction
  statusMeta : Option TransactionStatusMeta

structure SubscribeUpdateBlock where
  slot : U64
  blockTime : Option Int
  transactions : List SubscribeUpdateTransactionInfo

def collectAccountKeys (tx : Transaction) (statusMeta : TransactionStatusMeta) : List Bytes :=
  tx.message.elim [] Message.accountKeys ++ statusMeta.loadedWritableAddresses ++ statusMeta.loadedReadonlyAddresses

/-- One inner instruction at its place among all inner instructions. -/
def decodeInner (discs : Discriminators) (programIdx : Nat) (decoded : Nat → DeepPoolEvent → DecodedEvent) :
    CompiledInstruction × Nat → Option DecodedEvent
  | (ix, flatIdx) =>
    if ix.programIdIndex.toNat = programIdx then
      match tryDecodeEvent ix.data discs with
      | .ok event => some (decoded flatIdx event)
      | .error _ => none
    else none

/-- The body of the loop over `block.transactions`. -/
def decodeUpdate (discs : Discriminators) (programBytes : Bytes) (slot : U64) (blockTime : Option Int)
    (txUpdate : SubscribeUpdateTransactionInfo) : List DecodedEvent :=
  match txUpdate.statusMeta, txUpdate.transaction with
  | some statusMeta, some txInfo =>
    let signature := txInfo.signatures.head?.elim "" encodeBase58
    match (collectAccountKeys txInfo statusMeta).findIdx? (· == programBytes) with
    | none => []
    | some programIdx =>
      let invokedAsOuter :=
        txInfo.message.elim false fun msg => msg.instructions.any (·.programIdIndex.toNat == programIdx)
      let invokedAsInner := statusMeta.innerInstructions.flatten.any (·.programIdIndex.toNat == programIdx)
      if !invokedAsOuter && !invokedAsInner then []
      else
        statusMeta.innerInstructions.flatten.zipIdx.filterMap
          (decodeInner discs programIdx fun flatIdx event => ⟨signature, flatIdx, asI64 slot, blockTime, event⟩)
  | _, _ => []

/-- What `subscribe_once` sends to the writer for one block. -/
def decodeBlock (discs : Discriminators) (programBytes : Bytes) (block : SubscribeUpdateBlock) : BlockBatch where
  slot := block.slot
  events := block.transactions.flatMap (decodeUpdate discs programBytes block.slot (block.blockTime.bind fromTimestamp))

end DeepPool.Indexer
