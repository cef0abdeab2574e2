import Mathlib.Data.Vector.Basic
import DeepPool.Constants

/-! The indexer's own types (`contracts.rs`): decoded events, the batches of a block
and the rows it inserts. Timestamps are in seconds. -/

namespace DeepPool.Indexer
open Library

abbrev Bytes := List UInt8

abbrev Pubkey := Vector UInt8 32

def Bytes.digits (bytes : Bytes) : List Nat := bytes.map UInt8.toNat

theorem Bytes.digits_lt (bytes : Bytes) : ∀ digit ∈ bytes.digits, digit < 256 := by
  intro digit member
  obtain ⟨byte, _, rfl⟩ := List.mem_map.mp member
  exact byte.toNat_lt

theorem Bytes.ofNat_digits (bytes : Bytes) : bytes.digits.map UInt8.ofNat = bytes := by
  rw [digits, List.map_map]
  exact (List.map_congr_left fun byte _ => UInt8.ofNat_toNat).trans (List.map_id bytes)

structure PoolCreated where
  pool : Pubkey
  config : Pubkey
  tokenMint : Pubkey
  lpMint : Pubkey
  creator : Pubkey
  solInGross : U64
  solInNet : U64
  tokensInGross : U64
  tokensInNet : U64
  solReserveAfter : U64
  tokenReserveAfter : U64
  lpSupplyAfter : U64
  lpToCreator : U64
  lpLocked : U64
  deriving DecidableEq

structure LiquidityAdded where
  pool : Pubkey
  provider : Pubkey
  solInGross : U64
  solInNet : U64
  tokensInGross : U64
  tokensInNet : U64
  lpToProvider : U64
  lpLocked : U64
  solReserveAfter : U64
  tokenReserveAfter : U64
  lpSupplyAfter : U64
  deriving DecidableEq

structure LiquidityRemoved where
  pool : Pubkey
  provider : Pubkey
  lpBurned : U64
  solOutGross : U64
  solOutNet : U64
  tokensOutGross : U64
  tokensOutNet : U64
  solReserveAfter : U64
  tokenReserveAfter : U64
  lpSupplyAfter : U64
  deriving DecidableEq

structure SwapExecuted where
  pool : Pubkey
  user : Pubkey
  solSource : Pubkey
  buy : Bool
  amountInGross : U64
  amountInNet : U64
  amountOutGross : U64
  amountOutNet : U64
  fee : U64
  solReserveAfter : U64
  tokenReserveAfter : U64
  deriving DecidableEq

inductive DeepPoolEvent where
  | poolCreated (event : PoolCreated)
  | swapExecuted (event : SwapExecuted)
  | liquidityAdded (event : LiquidityAdded)
  | liquidityRemoved (event : LiquidityRemoved)
  deriving DecidableEq

/-- An event with the transaction it was found in. -/
structure DecodedEvent where
  signature : String
  innerIxIdx : Nat
  slot : Int
  blockTime : Option Int
  event : DeepPoolEvent
  deriving DecidableEq

structure BlockBatch where
  slot : U64
  events : List DecodedEvent

/-! Rows as they are inserted. The stored row is the same with its serial id. -/

structure NewPoolRow where
  pubkey : String
  config : String
  tokenMint : String
  lpMint : String
  creator : String
  solInitial : Int
  tokensInitial : Int
  lpSupplyInitial : Int
  slot : Int
  signature : String
  createdAt : Int
  deriving DecidableEq

structure NewReservesRow where
  poolId : Nat
  solReserve : Int
  tokenReserve : Int
  lpSupply : Int
  lastSlot : Int
  signature : String
  innerIxIdx : Nat
  createdAt : Int
  deriving DecidableEq

structure NewSwapRow where
  poolId : Nat
  userPk : String
  solSource : String
  isBuy : Bool
  amountInGross : Int
  amountInNet : Int
  amountOutGross : Int
  amountOutNet : Int
  fee : Int
  solReserveAfter : Int
  tokenReserveAfter : Int
  slot : Int
  signature : String
  innerIxIdx : Nat
  createdAt : Int
  deriving DecidableEq

structure NewLiquidityRow where
  poolId : Nat
  provider : String
  isAdd : Bool
  solAmountGross : Int
  solAmountNet : Int
  tokensAmountGross : Int
  tokensAmountNet : Int
  lpUserAmount : Int
  lpLocked : Int
  lpSupplyAfter : Int
  slot : Int
  signature : String
  innerIxIdx : Nat
  createdAt : Int
  deriving DecidableEq

/-- `as i64` -/
def asI64 (word : U64) : Int := if word.val < 2 ^ 63 then word.val else word.val - 2 ^ 64

end DeepPool.Indexer
