import DeepPool.Indexer.Base58

/-! Decoded events as insert rows (`stream/translate.rs`). Keys become text and
amounts signed 64-bit numbers. `now` is the clock, read where a block has no time. -/

namespace DeepPool.Indexer
open Library

def b58 (bytes : Pubkey) : String := encodeBase58 bytes.toList

def poolBytes : DeepPoolEvent → Pubkey
  | .poolCreated event => event.pool
  | .swapExecuted event => event.pool
  | .liquidityAdded event => event.pool
  | .liquidityRemoved event => event.pool

def poolPubkey (event : DeepPoolEvent) : String := b58 (poolBytes event)

def ts (now : Int) (de : DecodedEvent) : Int := de.blockTime.getD now

def newPool (now : Int) (p : PoolCreated) (de : DecodedEvent) : NewPoolRow where
  pubkey := b58 p.pool
  config := b58 p.config
  tokenMint := b58 p.tokenMint
  lpMint := b58 p.lpMint
  creator := b58 p.creator
  solInitial := asI64 p.solInNet
  tokensInitial := asI64 p.tokensInNet
  lpSupplyInitial := asI64 p.lpSupplyAfter
  slot := de.slot
  signature := de.signature
  createdAt := ts now de

def newSwap (now : Int) (s : SwapExecuted) (poolId : Nat) (de : DecodedEvent) : NewSwapRow where
  poolId
  userPk := b58 s.user
  solSource := b58 s.solSource
  isBuy := s.buy
  amountInGross := asI64 s.amountInGross
  amountInNet := asI64 s.amountInNet
  amountOutGross := asI64 s.amountOutGross
  amountOutNet := asI64 s.amountOutNet
  fee := asI64 s.fee
  solReserveAfter := asI64 s.solReserveAfter
  tokenReserveAfter := asI64 s.tokenReserveAfter
  slot := de.slot
  signature := de.signature
  innerIxIdx := de.innerIxIdx
  createdAt := ts now de

def newLiquidityAdd (now : Int) (la : LiquidityAdded) (poolId : Nat) (de : DecodedEvent) : NewLiquidityRow where
  poolId
  provider := b58 la.provider
  isAdd := true
  solAmountGross := asI64 la.solInGross
  solAmountNet := asI64 la.solInNet
  tokensAmountGross := asI64 la.tokensInGross
  tokensAmountNet := asI64 la.tokensInNet
  lpUserAmount := asI64 la.lpToProvider
  lpLocked := asI64 la.lpLocked
  lpSupplyAfter := asI64 la.lpSupplyAfter
  slot := de.slot
  signature := de.signature
  innerIxIdx := de.innerIxIdx
  createdAt := ts now de

def newLiquidityRemove (now : Int) (lr : LiquidityRemoved) (poolId : Nat) (de : DecodedEvent) : NewLiquidityRow where
  poolId
  provider := b58 lr.provider
  isAdd := false
  solAmountGross := asI64 lr.solOutGross
  solAmountNet := asI64 lr.solOutNet
  tokensAmountGross := asI64 lr.tokensOutGross
  tokensAmountNet := asI64 lr.tokensOutNet
  lpUserAmount := asI64 lr.lpBurned
  lpLocked := 0
  lpSupplyAfter := asI64 lr.lpSupplyAfter
  slot := de.slot
  signature := de.signature
  innerIxIdx := de.innerIxIdx
  createdAt := ts now de

def newReserves (now : Int) (poolId : Nat) (solReserve tokenReserve lpSupply : Int) (de : DecodedEvent) :
    NewReservesRow where
  poolId
  solReserve
  tokenReserve
  lpSupply
  lastSlot := de.slot
  signature := de.signature
  innerIxIdx := de.innerIxIdx
  createdAt := ts now de

end DeepPool.Indexer
