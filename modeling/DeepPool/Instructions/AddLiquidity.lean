import DeepPool.Chain
import DeepPool.Events

/-! The deposit instruction (`instructions/add_liquidity.rs`). The charge and the
LP minted follow from the tokens that arrive, not from the tokens sent. -/

namespace DeepPool
open Library

structure AddLiquidityArgs where
  tokenAmount : U64
  maxSolAmount : U64
  minLpOut : U64
  deriving DecidableEq

variable {Key : Type} [DecidableEq Key]

/-- Locked share of a deposit's LP: 7.5% floored, at least one unit. -/
def lpLock (lpAmount : U64) : Option U64 := do
  let locked ← (← (widen lpAmount).checkedMul (widen lpLockProviderBps)).checkedDiv 10000
  return (Word.truncate locked : U64).max 1

/-- `add_liquidity::handler`. -/
def addLiquidity (rent : U64) (transferFee : TransferFee) (provider : Key) (args : AddLiquidityArgs)
    (chain : Chain Key) : Except ProgramError (Chain Key × LiquidityAdded Key) := do
  require (0 < args.tokenAmount.val) .zeroDeposit
  let solReserve := chain.solReserve rent
  let tokenReserve := chain.tokenReserve
  require (0 < solReserve.val ∧ 0 < tokenReserve.val) .emptyPool
  let lpSupply := chain.lp.supply
  require (0 < lpSupply.val) .emptyPool
  let worstCaseSol ← okOr (calcProportionalCeil args.tokenAmount tokenReserve solReserve) .mathOverflow
  require (0 < worstCaseSol.val) .zeroDeposit
  require (worstCaseSol.val ≤ args.maxSolAmount.val) .solSlippageExceeded
  let vaultBefore := chain.tokenReserve
  let chain ← chain.transferChecked transferFee (.wallet provider) .pool args.tokenAmount
  let vault := chain.tokenReserve
  let netTokens ← okOr (vault.checkedSub vaultBefore) .mathOverflow
  require (0 < netTokens.val) .zeroDeposit
  let solRequired ← okOr (calcProportionalCeil netTokens tokenReserve solReserve) .mathOverflow
  require (0 < solRequired.val) .zeroDeposit
  let chain ← chain.systemTransfer (.wallet provider) .pool solRequired
  let lpAmount ← okOr (calcLpMint lpSupply netTokens tokenReserve) .mathOverflow
  require (0 < lpAmount.val) .zeroDeposit
  require (args.minLpOut.val ≤ lpAmount.val) .lpOutputSlippage
  let lpBurn ← okOr (lpLock lpAmount) .mathOverflow
  let lpToProvider ← okOr (lpAmount.checkedSub lpBurn) .mathOverflow
  require (0 < lpToProvider.val) .zeroDeposit
  let chain ← chain.mintTo (.wallet provider) lpToProvider
  let chain ← chain.mintTo .pool lpBurn
  return (chain,
    { pool := chain.address
      provider
      solInGross := solRequired
      solInNet := solRequired
      tokensInGross := args.tokenAmount
      tokensInNet := netTokens
      lpToProvider
      lpLocked := lpBurn
      solReserveAfter := chain.solReserve rent
      tokenReserveAfter := vault
      lpSupplyAfter := chain.lp.supply })

end DeepPool
