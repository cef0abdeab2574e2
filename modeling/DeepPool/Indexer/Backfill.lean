import DeepPool.Indexer.Grpc

/-! The backfill's reading of one transaction from JSON-RPC (`stream/backfill.rs`). -/

namespace DeepPool.Indexer
open Library

/-- `serde_json::Value`, with integers for numbers. -/
inductive Value where
  | null
  | number (value : Int)
  | string (value : String)
  | array (items : List Value)
  | object (fields : List (String × Value))

namespace Value

def get? (value : Value) (key : String) : Option Value :=
  match value with
  | .object fields => fields.lookup key
  | _ => none

def asStr? : Value → Option String
  | .string value => some value
  | _ => none

def asArray? : Value → Option (List Value)
  | .array items => some items
  | _ => none

def asU64? : Value → Option Nat
  | .number value => if 0 ≤ value ∧ value ≤ 18446744073709551615 then some value.toNat else none
  | _ => none

def isNull : Value → Bool
  | .null => true
  | _ => false

end Value

inductive TxError where
  | call (message : String)
  | rpc (message : String) (err : Value)
  | malformed (message : String)

def orMalformed {α : Type} (value : Option α) (message : String) : Except TxError α :=
  value.elim (.error (.malformed message)) .ok

structure SignatureEntry where
  signature : String
  slot : U64
  blockTime : Option Int

/-- Static keys, then loaded writable ones, then loaded read-only ones. -/
def accountKeys (message statusMeta : Value) : Except TxError (List String) := do
  let static ← orMalformed ((message.get? "accountKeys").bind Value.asArray?) "missing accountKeys"
  let loaded (kind : String) : List String :=
    ((((statusMeta.get? "loadedAddresses").bind (·.get? kind)).bind Value.asArray?).getD []).filterMap Value.asStr?
  return static.filterMap Value.asStr? ++ loaded "writable" ++ loaded "readonly"

/-- One inner instruction. An absent index reads as the largest 64-bit number. -/
def decodeJson (discs : Discriminators) (programIdx : Nat) (decoded : Nat → DeepPoolEvent → DecodedEvent) :
    Value × Nat → Option DecodedEvent
  | (ix, flatIdx) =>
    let pidIdx := ((ix.get? "programIdIndex").bind Value.asU64?).getD 18446744073709551615
    if pidIdx = programIdx then
      let dataB58 := ((ix.get? "data").bind Value.asStr?).getD ""
      match decodeBase58 dataB58 with
      | some data =>
        match tryDecodeEvent data discs with
        | .ok event => some (decoded flatIdx event)
        | .error _ => none
      | none => none
    else none

/-- `response` is what the `getTransaction` call for the entry's signature returned. -/
def decodeTx (discs : Discriminators) (programId : String) (entry : SignatureEntry) (response : Except TxError Value) :
    Except TxError (List DecodedEvent) := do
  let resp ← response
  if let some err := resp.get? "error" then throw (.rpc "getTransaction rpc error" err)
  match (resp.get? "result").filter (!·.isNull) with
  | none => return []
  | some result =>
    let blockTime := entry.blockTime.bind fromTimestamp
    let statusMeta ← orMalformed (result.get? "meta") "tx missing meta"
    let transaction ← orMalformed (result.get? "transaction") "tx missing transaction"
    let message ← orMalformed (transaction.get? "message") "tx missing message"
    let keys ← accountKeys message statusMeta
    match keys.findIdx? (· == programId) with
    | none => return []
    | some programIdx =>
      let groups := ((statusMeta.get? "innerInstructions").bind Value.asArray?).getD []
      let instructions := groups.flatMap fun group => ((group.get? "instructions").bind Value.asArray?).getD []
      return instructions.zipIdx.filterMap
        (decodeJson discs programIdx fun flatIdx event => ⟨entry.signature, flatIdx, asI64 entry.slot, blockTime, event⟩)

/-- The entries of a page, newest first, with their responses. A transaction that does
not decode is skipped. -/
def decodePage (discs : Discriminators) (programId : String) (page : List (SignatureEntry × Except TxError Value)) :
    List DecodedEvent :=
  page.reverse.flatMap fun (entry, response) =>
    match decodeTx discs programId entry response with
    | .ok events => events
    | .error _ => []

end DeepPool.Indexer
