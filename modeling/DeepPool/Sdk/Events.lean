import DeepPool.Indexer.Confirmed
import DeepPool.Indexer.Wire
import DeepPool.Library.Collect

/-! The event parser of the SDK (`events.ts`), over the responses that `@solana/web3.js` builds. -/

namespace DeepPool.Sdk
open Library Indexer

/-- A field that Anchor's coder reads. -/
inductive FieldValue where
  | publicKey (key : Pubkey)
  | bn (value : U64)
  | bool (value : Bool)
  deriving DecidableEq

abbrev Fields := List (String × FieldValue)

structure DecodedEvent where
  name : String
  data : Fields
  deriving DecidableEq

def eventIxTag : Bytes := [228, 69, 165, 46, 81, 203, 154, 29]

def eventDiscriminators : List (String × Bytes) :=
  [("PoolCreated", [202, 44, 41, 88, 104, 220, 157, 82]), ("LiquidityAdded", [154, 26, 221, 108, 238, 64, 217, 161]),
    ("LiquidityRemoved", [225, 105, 216, 39, 124, 116, 169, 189]), ("SwapExecuted", [150, 166, 26, 225, 28, 89, 38, 79])]

/-! What `getTransaction` returns, as far as the parser reads it. -/

structure CompiledInstruction where
  programIdIndex : Nat
  data : String

structure CompiledInnerInstruction where
  instructions : List CompiledInstruction

structure ConfirmedTransactionMeta where
  innerInstructions : Option (List CompiledInnerInstruction)

/-- A message of version 0 names its other keys by address-lookup tables. -/
inductive VersionedMessage where
  | legacy (accountKeys : List Pubkey)
  | v0 (staticAccountKeys : List Pubkey)

/-- `msg.staticAccountKeys ?? msg.accountKeys` -/
def VersionedMessage.accountKeys : VersionedMessage → List Pubkey
  | legacy accountKeys => accountKeys
  | v0 staticAccountKeys => staticAccountKeys

structure VersionedTransactionResponse where
  message : VersionedMessage
  statusMeta : Option ConfirmedTransactionMeta

/-- What the parser throws: `.equals` of an undefined key, a text that is not base 58, or
a payload that the coder refuses. -/
inductive Thrown where
  | undefinedKey
  | nonBase58
  | coder (name : String)
  deriving DecidableEq

/-- `coder.types.decode(name, payload)`, with none where it throws. -/
abbrev TypesCoder := String → Bytes → Option Fields

/-- The data of an instruction of the program. -/
def parseData (coder : TypesCoder) (data : Bytes) : Except Thrown (Option DecodedEvent) :=
  if data.length < 16 then .ok none
  else if data.take 8 ≠ eventIxTag then .ok none
  else
    match eventDiscriminators.find? ((data.drop 8).take 8 = ·.2) with
    | none => .ok none
    | some (name, _) =>
      match coder name (data.drop 16) with
      | none => .error (.coder name)
      | some decoded => .ok (some ⟨name, decoded⟩)

/-- The body of the inner loop. -/
def parseInstruction (coder : TypesCoder) (programId : Pubkey) (accountKeys : List Pubkey) (ix : CompiledInstruction) :
    Except Thrown (Option DecodedEvent) :=
  match accountKeys[ix.programIdIndex]? with
  | none => .error .undefinedKey
  | some key =>
    if key ≠ programId then .ok none
    else
      match decodeBase58 ix.data with
      | none => .error .nonBase58
      | some data => parseData coder data

def parseEvents (coder : TypesCoder) (programId : Pubkey) (tx : Option VersionedTransactionResponse) :
    Except Thrown (List DecodedEvent) :=
  match tx with
  | none => .ok []
  | some tx =>
    match tx.statusMeta.bind ConfirmedTransactionMeta.innerInstructions with
    | none => .ok []
    | some groups =>
      groups.foldlM (fun events inner =>
        collect (parseInstruction coder programId tx.message.accountKeys) events inner.instructions) []

/-! The fields of the events under their names in `deep_pool.json`. -/

def eventName : DeepPoolEvent Pubkey → String
  | .poolCreated _ => "PoolCreated"
  | .swapExecuted _ => "SwapExecuted"
  | .liquidityAdded _ => "LiquidityAdded"
  | .liquidityRemoved _ => "LiquidityRemoved"

def fields : DeepPoolEvent Pubkey → Fields
  | .poolCreated event =>
    [("pool", .publicKey event.pool), ("config", .publicKey event.config), ("token_mint", .publicKey event.tokenMint),
      ("lp_mint", .publicKey event.lpMint), ("creator", .publicKey event.creator), ("sol_in_gross", .bn event.solInGross),
      ("sol_in_net", .bn event.solInNet), ("tokens_in_gross", .bn event.tokensInGross),
      ("tokens_in_net", .bn event.tokensInNet), ("sol_reserve_after", .bn event.solReserveAfter),
      ("token_reserve_after", .bn event.tokenReserveAfter), ("lp_supply_after", .bn event.lpSupplyAfter),
      ("lp_to_creator", .bn event.lpToCreator), ("lp_locked", .bn event.lpLocked)]
  | .swapExecuted event =>
    [("pool", .publicKey event.pool), ("user", .publicKey event.user), ("sol_source", .publicKey event.solSource),
      ("buy", .bool event.buy), ("amount_in_gross", .bn event.amountInGross), ("amount_in_net", .bn event.amountInNet),
      ("amount_out_gross", .bn event.amountOutGross), ("amount_out_net", .bn event.amountOutNet), ("fee", .bn event.fee),
      ("sol_reserve_after", .bn event.solReserveAfter), ("token_reserve_after", .bn event.tokenReserveAfter)]
  | .liquidityAdded event =>
    [("pool", .publicKey event.pool), ("provider", .publicKey event.provider), ("sol_in_gross", .bn event.solInGross),
      ("sol_in_net", .bn event.solInNet), ("tokens_in_gross", .bn event.tokensInGross),
      ("tokens_in_net", .bn event.tokensInNet), ("lp_to_provider", .bn event.lpToProvider),
      ("lp_locked", .bn event.lpLocked), ("sol_reserve_after", .bn event.solReserveAfter),
      ("token_reserve_after", .bn event.tokenReserveAfter), ("lp_supply_after", .bn event.lpSupplyAfter)]
  | .liquidityRemoved event =>
    [("pool", .publicKey event.pool), ("provider", .publicKey event.provider), ("lp_burned", .bn event.lpBurned),
      ("sol_out_gross", .bn event.solOutGross), ("sol_out_net", .bn event.solOutNet),
      ("tokens_out_gross", .bn event.tokensOutGross), ("tokens_out_net", .bn event.tokensOutNet),
      ("sol_reserve_after", .bn event.solReserveAfter), ("token_reserve_after", .bn event.tokenReserveAfter),
      ("lp_supply_after", .bn event.lpSupplyAfter)]

def DecodedEvent.of (event : DeepPoolEvent Pubkey) : DecodedEvent := ⟨eventName event, fields event⟩

inductive TransactionVersion where
  | legacy
  | v0

def TransactionVersion.message : TransactionVersion → List Pubkey → VersionedMessage
  | legacy => .legacy
  | v0 => .v0

def compiledInstruction (ix : Indexer.CompiledInstruction) : CompiledInstruction :=
  ⟨ix.programIdIndex.toNat, encodeBase58 ix.data⟩

/-- A confirmed transaction as `getTransaction` returns it. -/
def getTransaction (version : TransactionVersion) (tx : ConfirmedTransaction) : VersionedTransactionResponse where
  message := version.message tx.accountKeys
  statusMeta := some ⟨some (tx.innerInstructions.map fun group => ⟨group.map compiledInstruction⟩)⟩

end DeepPool.Sdk
