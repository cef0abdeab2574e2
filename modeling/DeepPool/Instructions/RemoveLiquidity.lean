import DeepPool.Chain
import DeepPool.Events

/-! The withdrawal instruction (`instructions/remove_liquidity.rs`). -/

namespace DeepPool
open Library

structure RemoveLiquidityArgs where
  lpAmount : U64
  minSolOut : U64
  minTokensOut : U64
  deriving DecidableEq

variable {Key : Type} [DecidableEq Key]

/-- The account constraint on the provider's balance, then `remove_liquidity::handler`. -/
def removeLiquidity (rent : U64) (transferFee : TransferFee) (provider : Key) (args : RemoveLiquidityArgs)
    (chain : Chain Key) : Except ProgramError (Chain Key × LiquidityRemoved Key) := do
  require (args.lpAmount.val ≤ (chain.lp.balance (.wallet provider)).val) .insufficientLpTokens
  require (0 < args.lpAmount.val) .zeroInput
  let solReserve := chain.solReserve rent
  let tokenReserve := chain.tokenReserve
  let lpSupply := chain.lp.supply
  require (0 < solReserve.val ∧ 0 < tokenReserve.val) .emptyPool
  require (0 < lpSupply.val) .emptyPool
  let solOut ← okOr (calcLpRedeem args.lpAmount solReserve lpSupply) .mathOverflow
  let tokensOut ← okOr (calcLpRedeem args.lpAmount tokenReserve lpSupply) .mathOverflow
  require (args.minSolOut.val ≤ solOut.val) .solOutputSlippage
  require (args.minTokensOut.val ≤ tokensOut.val) .tokenOutputSlippage
  let solRemaining ← okOr (solReserve.checkedSub solOut) .mathOverflow
  let tokensRemaining ← okOr (tokenReserve.checkedSub tokensOut) .mathOverflow
  require (minPoolReserveSol.val ≤ solRemaining.val ∧ minPoolReserveTokens.val ≤ tokensRemaining.val)
    .minimumLiquidityRequired
  let chain ← chain.burn (.wallet provider) args.lpAmount
  let providerTokenBalanceBefore := chain.tokens (.wallet provider)
  let chain ← chain.transferChecked transferFee .pool (.wallet provider) tokensOut
  let providerReceived ← okOr ((chain.tokens (.wallet provider)).checkedSub providerTokenBalanceBefore) .mathOverflow
  let chain ← chain.subLamports .pool solOut
  let chain ← chain.addLamports (.wallet provider) solOut
  return (chain,
    { pool := chain.address
      provider
      lpBurned := args.lpAmount
      solOutGross := solOut
      solOutNet := solOut
      tokensOutGross := tokensOut
      tokensOutNet := providerReceived
      solReserveAfter := chain.solReserve rent
      tokenReserveAfter := chain.tokenReserve
      lpSupplyAfter := chain.lp.supply })

end DeepPool
