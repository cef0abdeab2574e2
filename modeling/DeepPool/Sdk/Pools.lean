import DeepPool.Layout
import DeepPool.View
import DeepPool.Library.Collect
import DeepPool.Indexer.Base58
import DeepPool.Indexer.Services
import DeepPool.Sdk.Getters

/-! The pool readers of `getters.ts`: from the indexer where one is given, else from the
accounts themselves. -/

namespace DeepPool.Sdk
open Library

structure PoolState where
  address : String
  config : String
  tokenMint : String
  tokenVault : String
  lpMint : String
  initialSol : Number
  initialTokens : Number
  solReserve : Number
  tokenReserve : Number
  price : Number

inductive SdkError where
  | publicKey
  | noProgramAddress
  | http
  | accountDiscriminator
  | tokenAccount
  | tokenOwnerOffCurve
  | bigNumber
  deriving DecidableEq

abbrev Pubkey := Indexer.Pubkey

/-- `toBase58` -/
def toBase58 (key : Pubkey) : String := Indexer.encodeBase58 key.toList

/-- `new PublicKey` of a text -/
def publicKey (text : String) : Except SdkError Pubkey :=
  match Indexer.decodeBase58 text with
  | none => .error .publicKey
  | some bytes => if sized : bytes.length = 32 then .ok ⟨bytes.toArray, sized⟩ else .error .publicKey

/-- A whole number as JavaScript reads it. -/
def number (value : Int) : Number := Double.round value

def lamportsPerSol : Number := 1000000000

open Double in
/-- SOL for a token, in display units; a token has six decimals. -/
def price (sol tokens : Number) : Number := if 0 < tokens then div (div sol lamportsPerSol) (div tokens (10 ^ 6)) else 0

section Addresses
variable (find : Seeds Pubkey → Option (Pubkey × Word 8))

/-- `PublicKey.findProgramAddressSync` -/
def findProgramAddress (seeds : Seeds Pubkey) : Except SdkError Pubkey :=
  match find seeds with
  | some (address, _) => .ok address
  | none => .error .noProgramAddress

def getPoolPda (config tokenMint : Pubkey) : Except SdkError Pubkey := findProgramAddress find (.pool config tokenMint)

def getVaultPda (pool : Pubkey) : Except SdkError Pubkey := findProgramAddress find (.vault pool)

def getLpMintPda (pool : Pubkey) : Except SdkError Pubkey := findProgramAddress find (.lpMint pool)

/-- A pool without reserves is shown with none. -/
def detailToPoolState (detail : Indexer.PoolDetail) : Except SdkError PoolState := do
  let poolPubkey ← publicKey detail.pool.data.pubkey
  let tokenVault ← getVaultPda find poolPubkey
  let sol := detail.reserves.elim 0 fun row => number row.data.solReserve
  let tokens := detail.reserves.elim 0 fun row => number row.data.tokenReserve
  return {
    address := detail.pool.data.pubkey
    config := detail.pool.data.config
    tokenMint := detail.pool.data.tokenMint
    tokenVault := toBase58 tokenVault
    lpMint := detail.pool.data.lpMint
    initialSol := number detail.pool.data.solInitial
    initialTokens := number detail.pool.data.tokensInitial
    solReserve := sol
    tokenReserve := tokens
    price := price sol tokens }

/-- What the indexer's API answers to a path. Without an answer, the request throws; 404 is no pool. -/
abbrev IndexerApi := String → Except SdkError (Option Indexer.PoolDetail)

/-- An indexer that answers from its database. -/
def IndexerApi.of (collation : Indexer.Collation) (db : Indexer.Db) : IndexerApi := fun pubkey =>
  .ok ((Indexer.getPool collation db pubkey).run .default).1

def getPoolDetailFromIndexer (indexer : IndexerApi) (poolPubkey : String) : Except SdkError (Option PoolState) := do
  match ← indexer poolPubkey with
  | none => return none
  | some detail => return some (← detailToPoolState find detail)

end Addresses

/-- The primary source, or the other one where it throws. -/
def withFallback {Result : Type} (primary fallback : Except SdkError Result) : Except SdkError Result :=
  match primary with
  | .ok result => .ok result
  | .error _ => fallback

structure AccountInfo where
  lamports : U64
  data : Indexer.Bytes

/-- What a node answers. `programAccounts` are all accounts of the program. -/
structure Connection where
  getAccountInfo : Pubkey → Option AccountInfo
  getTokenAccountBalance : Pubkey → Option U64
  getMinimumBalanceForRentExemption : Nat → U64
  programAccounts : List (Pubkey × AccountInfo)

/-- `getProgramAccounts` with a `dataSize` and a `memcmp` filter -/
def Connection.getProgramAccounts (connection : Connection) (dataSize offset : Nat) (bytes : Indexer.Bytes) :
    List (Pubkey × AccountInfo) :=
  connection.programAccounts.filter fun (_, info) =>
    info.data.length = dataSize ∧ (info.data.drop offset).take bytes.length = bytes

def poolAccountSize : Nat := 835

section Rpc
variable (find : Seeds Pubkey → Option (Pubkey × Word 8)) (connection : Connection)

open Double in
def getPoolByAddressFromRpc (poolAddress : Pubkey) : Except SdkError (Option PoolState) := do
  match connection.getAccountInfo poolAddress with
  | none => return none
  | some info =>
    let pool ← (Pool.tryDeserialize info.data).mapError fun _ => .accountDiscriminator
    let rent := connection.getMinimumBalanceForRentExemption info.data.length
    let solReserve := sub (number info.lamports.val) (number rent.val)
    match connection.getTokenAccountBalance pool.tokenVault with
    | none => throw .tokenAccount
    | some amount =>
      let tokenReserve := number amount.val
      return some {
        address := toBase58 poolAddress
        config := toBase58 pool.config
        tokenMint := toBase58 pool.tokenMint
        tokenVault := toBase58 pool.tokenVault
        lpMint := toBase58 pool.lpMint
        initialSol := number pool.initialSol.val
        initialTokens := number pool.initialTokens.val
        solReserve
        tokenReserve
        price := price solReserve tokenReserve }

/-- The config and the mint are the caller's own texts. -/
def getPoolFromRpc (tokenMint config : String) : Except SdkError (Option PoolState) := do
  let mint ← publicKey tokenMint
  let configPk ← publicKey config
  let poolPda ← getPoolPda find configPk mint
  let found ← getPoolByAddressFromRpc connection poolPda
  return found.map fun state => { state with config, tokenMint }

end Rpc

section Getters
variable (find : Seeds Pubkey → Option (Pubkey × Word 8)) (connection : Connection) (indexer : Option IndexerApi)

def getPoolByAddress (poolAddress : Pubkey) : Except SdkError (Option PoolState) :=
  match indexer with
  | some indexer =>
    withFallback (getPoolDetailFromIndexer find indexer (toBase58 poolAddress))
      (getPoolByAddressFromRpc connection poolAddress)
  | none => getPoolByAddressFromRpc connection poolAddress

def getPool (tokenMint config : String) : Except SdkError (Option PoolState) :=
  match indexer with
  | some indexer => do
    let configPk ← publicKey config
    let mint ← publicKey tokenMint
    let poolPda ← getPoolPda find configPk mint
    withFallback (getPoolDetailFromIndexer find indexer (toBase58 poolPda))
      (getPoolFromRpc find connection tokenMint config)
  | none => getPoolFromRpc find connection tokenMint config

/-- The pools of a mint, those with more SOL first. Each is read again by its address. -/
def getPoolsForMint (tokenMint : String) : Except SdkError (List PoolState) := do
  let mint ← (Indexer.decodeBase58 tokenMint).elim (.error .publicKey) .ok
  let accounts := connection.getProgramAccounts poolAccountSize 40 mint
  let pools ← collect (fun (pubkey, _) => getPoolByAddressFromRpc connection pubkey) [] accounts
  return pools.mergeSort fun a b => Double.sub b.solReserve a.solReserve ≤ 0

end Getters
end DeepPool.Sdk
