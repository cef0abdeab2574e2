import DeepPool.Indexer.Backfill

/-! Confirmed transactions, whether they succeeded or not, and how the two sources of
the indexer show them: the gRPC block stream and `getTransaction` in JSON. -/

namespace DeepPool.Indexer
open Library

/-- Why a transaction failed, in the encodings of both sources. -/
structure TransactionError where
  encoded : Bytes
  json : Value

/-- Program indices count static keys first, then loaded writable and loaded read-only ones. -/
structure ConfirmedTransaction where
  signature : Vector UInt8 64
  cosignatures : List (Vector UInt8 64)
  accountKeys : List Pubkey
  loadedWritable : List Pubkey
  loadedReadonly : List Pubkey
  instructions : List CompiledInstruction
  innerInstructions : List (List CompiledInstruction)
  err : Option TransactionError

structure ConfirmedBlock where
  slot : U64
  blockTime : Option Int
  transactions : List ConfirmedTransaction

namespace ConfirmedTransaction

def keys (tx : ConfirmedTransaction) : List Pubkey := tx.accountKeys ++ tx.loadedWritable ++ tx.loadedReadonly

def signatureText (tx : ConfirmedTransaction) : String := encodeBase58 tx.signature.toList

def Succeeded (tx : ConfirmedTransaction) : Prop := tx.err = none

/-- The instruction names the given program by its place among the transaction's keys. -/
def Addresses (tx : ConfirmedTransaction) (ix : CompiledInstruction) (program : Pubkey) : Prop :=
  tx.keys.findIdx? (· == program) = some ix.programIdIndex.toNat

/-- In the gRPC block stream. -/
def update (tx : ConfirmedTransaction) : SubscribeUpdateTransactionInfo where
  transaction := some
    { signatures := tx.signature.toList :: tx.cosignatures.map fun signature => signature.toList
      message := some { accountKeys := tx.accountKeys.map fun key => key.toList, instructions := tx.instructions } }
  statusMeta := some
    { err := tx.err.map TransactionError.encoded
      innerInstructions := tx.innerInstructions
      loadedWritableAddresses := tx.loadedWritable.map fun key => key.toList
      loadedReadonlyAddresses := tx.loadedReadonly.map fun key => key.toList }

def jsonKeys (keys : List Pubkey) : Value := .array (keys.map fun key => .string (encodeBase58 key.toList))

def jsonInstruction (ix : CompiledInstruction) : Value :=
  .object [("programIdIndex", .number ix.programIdIndex.toNat), ("data", .string (encodeBase58 ix.data))]

def jsonInner (groups : List (List CompiledInstruction)) : Value :=
  .array (groups.map fun group => .object [("instructions", .array (group.map jsonInstruction))])

def jsonMessage (tx : ConfirmedTransaction) : Value :=
  .object [("accountKeys", jsonKeys tx.accountKeys), ("instructions", .array (tx.instructions.map jsonInstruction))]

def jsonTransaction (tx : ConfirmedTransaction) : Value :=
  .object
    [("signatures", .array ((tx.signature :: tx.cosignatures).map fun signature => .string (encodeBase58 signature.toList))),
      ("message", tx.jsonMessage)]

def jsonMeta (tx : ConfirmedTransaction) : Value :=
  .object
    [("err", tx.err.elim .null TransactionError.json), ("innerInstructions", jsonInner tx.innerInstructions),
      ("loadedAddresses", .object [("writable", jsonKeys tx.loadedWritable), ("readonly", jsonKeys tx.loadedReadonly)])]

/-- As the answer to `getTransaction`. -/
def result (tx : ConfirmedTransaction) : Value := .object [("transaction", tx.jsonTransaction), ("meta", tx.jsonMeta)]

def response (tx : ConfirmedTransaction) : Value := .object [("result", tx.result)]

end ConfirmedTransaction

namespace ConfirmedBlock

/-- In the gRPC block stream. -/
def update (block : ConfirmedBlock) : SubscribeUpdateBlock where
  slot := block.slot
  blockTime := block.blockTime
  transactions := block.transactions.map ConfirmedTransaction.update

/-- In the list of `getSignaturesForAddress`. -/
def entry (block : ConfirmedBlock) (tx : ConfirmedTransaction) : SignatureEntry where
  signature := tx.signatureText
  slot := block.slot
  blockTime := block.blockTime

/-- The events that a transaction of the block records for the program, each with its
place among all inner instructions. -/
def recorded (discs : Discriminators) (program : Pubkey) (block : ConfirmedBlock) (tx : ConfirmedTransaction) :
    List DecodedEvent :=
  match tx.keys.findIdx? (· == program) with
  | none => []
  | some programIdx =>
    tx.innerInstructions.flatten.zipIdx.filterMap (decodeInner discs programIdx fun flatIdx event =>
      ⟨tx.signatureText, flatIdx, asI64 block.slot, block.blockTime.bind fromTimestamp, event⟩)

end ConfirmedBlock
end DeepPool.Indexer
