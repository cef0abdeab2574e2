import DeepPool.Constants

/-! The events the instructions emit (`events.rs`), fields in wire order. -/

namespace DeepPool

structure PoolCreated (Key : Type) where
  pool : Key
  config : Key
  tokenMint : Key
  lpMint : Key
  creator : Key
  solInGross : U64
  solInNet : U64
  tokensInGross : U64
  tokensInNet : U64
  solReserveAfter : U64
  tokenReserveAfter : U64
  lpSupplyAfter : U64
  lpToCreator : U64
  lpLocked : U64
  deriving DecidableEq

structure LiquidityAdded (Key : Type) where
  pool : Key
  provider : Key
  solInGross : U64
  solInNet : U64
  tokensInGross : U64
  tokensInNet : U64
  lpToProvider : U64
  lpLocked : U64
  solReserveAfter : U64
  tokenReserveAfter : U64
  lpSupplyAfter : U64
  deriving DecidableEq

structure LiquidityRemoved (Key : Type) where
  pool : Key
  provider : Key
  lpBurned : U64
  solOutGross : U64
  solOutNet : U64
  tokensOutGross : U64
  tokensOutNet : U64
  solReserveAfter : U64
  tokenReserveAfter : U64
  lpSupplyAfter : U64
  deriving DecidableEq

structure SwapExecuted (Key : Type) where
  pool : Key
  user : Key
  solSource : Key
  buy : Bool
  amountInGross : U64
  amountInNet : U64
  amountOutGross : U64
  amountOutNet : U64
  fee : U64
  solReserveAfter : U64
  tokenReserveAfter : U64
  deriving DecidableEq

inductive DeepPoolEvent (Key : Type) where
  | poolCreated (event : PoolCreated Key)
  | swapExecuted (event : SwapExecuted Key)
  | liquidityAdded (event : LiquidityAdded Key)
  | liquidityRemoved (event : LiquidityRemoved Key)
  deriving DecidableEq

def DeepPoolEvent.pool {Key : Type} : DeepPoolEvent Key → Key
  | .poolCreated event => event.pool
  | .swapExecuted event => event.pool
  | .liquidityAdded event => event.pool
  | .liquidityRemoved event => event.pool

end DeepPool
