import DeepPool.Events
import DeepPool.Indexer.Decoder

/-! What the program puts on the wire: `emit_cpi!` writes the event tag, the
discriminator and the fields of the program's own event in declaration order. -/

namespace DeepPool.Indexer
open Library

/-- `u64::to_le_bytes` -/
def toLeBytes (word : U64) : Bytes := (littleEndian 256 8 word.val).map UInt8.ofNat

def boolByte (value : Bool) : Bytes := [if value then 1 else 0]

def poolCreatedBytes (event : DeepPool.PoolCreated Pubkey) : Bytes :=
  event.pool.toList ++ event.config.toList ++ event.tokenMint.toList ++ event.lpMint.toList ++ event.creator.toList ++
    toLeBytes event.solInGross ++ toLeBytes event.solInNet ++ toLeBytes event.tokensInGross ++
    toLeBytes event.tokensInNet ++ toLeBytes event.solReserveAfter ++ toLeBytes event.tokenReserveAfter ++
    toLeBytes event.lpSupplyAfter ++ toLeBytes event.lpToCreator ++ toLeBytes event.lpLocked

def liquidityAddedBytes (event : DeepPool.LiquidityAdded Pubkey) : Bytes :=
  event.pool.toList ++ event.provider.toList ++ toLeBytes event.solInGross ++ toLeBytes event.solInNet ++
    toLeBytes event.tokensInGross ++ toLeBytes event.tokensInNet ++ toLeBytes event.lpToProvider ++
    toLeBytes event.lpLocked ++ toLeBytes event.solReserveAfter ++ toLeBytes event.tokenReserveAfter ++
    toLeBytes event.lpSupplyAfter

def liquidityRemovedBytes (event : DeepPool.LiquidityRemoved Pubkey) : Bytes :=
  event.pool.toList ++ event.provider.toList ++ toLeBytes event.lpBurned ++ toLeBytes event.solOutGross ++
    toLeBytes event.solOutNet ++ toLeBytes event.tokensOutGross ++ toLeBytes event.tokensOutNet ++
    toLeBytes event.solReserveAfter ++ toLeBytes event.tokenReserveAfter ++ toLeBytes event.lpSupplyAfter

def swapExecutedBytes (event : DeepPool.SwapExecuted Pubkey) : Bytes :=
  event.pool.toList ++ event.user.toList ++ event.solSource.toList ++ boolByte event.buy ++
    toLeBytes event.amountInGross ++ toLeBytes event.amountInNet ++ toLeBytes event.amountOutGross ++
    toLeBytes event.amountOutNet ++ toLeBytes event.fee ++ toLeBytes event.solReserveAfter ++
    toLeBytes event.tokenReserveAfter

def discriminator (discs : Discriminators) : DeepPool.DeepPoolEvent Pubkey → Discriminator
  | .poolCreated _ => discs.poolCreated
  | .swapExecuted _ => discs.swapExecuted
  | .liquidityAdded _ => discs.liquidityAdded
  | .liquidityRemoved _ => discs.liquidityRemoved

def payloadBytes : DeepPool.DeepPoolEvent Pubkey → Bytes
  | .poolCreated event => poolCreatedBytes event
  | .swapExecuted event => swapExecutedBytes event
  | .liquidityAdded event => liquidityAddedBytes event
  | .liquidityRemoved event => liquidityRemovedBytes event

def eventBytes (discs : Discriminators) (event : DeepPool.DeepPoolEvent Pubkey) : Bytes :=
  eventIxTagLe ++ (discriminator discs event).toList ++ payloadBytes event

/-! The program's event with the same fields, name by name. -/

def PoolCreated.emitted (event : PoolCreated) : DeepPool.PoolCreated Pubkey where
  pool := event.pool
  config := event.config
  tokenMint := event.tokenMint
  lpMint := event.lpMint
  creator := event.creator
  solInGross := event.solInGross
  solInNet := event.solInNet
  tokensInGross := event.tokensInGross
  tokensInNet := event.tokensInNet
  solReserveAfter := event.solReserveAfter
  tokenReserveAfter := event.tokenReserveAfter
  lpSupplyAfter := event.lpSupplyAfter
  lpToCreator := event.lpToCreator
  lpLocked := event.lpLocked

def LiquidityAdded.emitted (event : LiquidityAdded) : DeepPool.LiquidityAdded Pubkey where
  pool := event.pool
  provider := event.provider
  solInGross := event.solInGross
  solInNet := event.solInNet
  tokensInGross := event.tokensInGross
  tokensInNet := event.tokensInNet
  lpToProvider := event.lpToProvider
  lpLocked := event.lpLocked
  solReserveAfter := event.solReserveAfter
  tokenReserveAfter := event.tokenReserveAfter
  lpSupplyAfter := event.lpSupplyAfter

def LiquidityRemoved.emitted (event : LiquidityRemoved) : DeepPool.LiquidityRemoved Pubkey where
  pool := event.pool
  provider := event.provider
  lpBurned := event.lpBurned
  solOutGross := event.solOutGross
  solOutNet := event.solOutNet
  tokensOutGross := event.tokensOutGross
  tokensOutNet := event.tokensOutNet
  solReserveAfter := event.solReserveAfter
  tokenReserveAfter := event.tokenReserveAfter
  lpSupplyAfter := event.lpSupplyAfter

def SwapExecuted.emitted (event : SwapExecuted) : DeepPool.SwapExecuted Pubkey where
  pool := event.pool
  user := event.user
  solSource := event.solSource
  buy := event.buy
  amountInGross := event.amountInGross
  amountInNet := event.amountInNet
  amountOutGross := event.amountOutGross
  amountOutNet := event.amountOutNet
  fee := event.fee
  solReserveAfter := event.solReserveAfter
  tokenReserveAfter := event.tokenReserveAfter

def DeepPoolEvent.emitted : DeepPoolEvent → DeepPool.DeepPoolEvent Pubkey
  | .poolCreated event => .poolCreated event.emitted
  | .swapExecuted event => .swapExecuted event.emitted
  | .liquidityAdded event => .liquidityAdded event.emitted
  | .liquidityRemoved event => .liquidityRemoved event.emitted

end DeepPool.Indexer
