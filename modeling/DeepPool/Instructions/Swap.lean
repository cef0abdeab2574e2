import DeepPool.Chain
import DeepPool.Events

/-! The swap instruction (`instructions/swap.rs`). Anchor deserializes an account
once, so a balance bound before a transfer is the stale copy and one read from a
later chain is the reloaded account. -/

namespace DeepPool
open Library

structure SwapArgs where
  amountIn : U64
  minimumOut : U64
  buy : Bool
  deriving DecidableEq

/-- Both sign; a wallet passes the same key twice. -/
structure SwapAccounts (Key : Type) where
  user : Key
  solSource : Key
  deriving DecidableEq

structure SwapMetrics where
  amountInGross : U64
  amountInNet : U64
  amountOutGross : U64
  amountOutNet : U64
  fee : U64

variable {Key : Type} [DecidableEq Key]

def handleBuy (transferFee : TransferFee) (accounts : SwapAccounts Key) (args : SwapArgs)
    (solReserve tokenReserve : U64) (chain : Chain Key) : Except ProgramError (Chain Key × SwapMetrics) := do
  let poolFee ← okOr (calcSwapFee args.amountIn) .mathOverflow
  let effectiveIn ← okOr (args.amountIn.checkedSub poolFee) .mathOverflow
  let tokensOut ← okOr (calcSwapOutput effectiveIn solReserve tokenReserve) .mathOverflow
  require (args.minimumOut.val ≤ tokensOut.val) .slippageExceeded
  require (tokensOut.val < tokenReserve.val) .emptyPool
  let userTokenBalanceBefore := chain.tokens (.wallet accounts.user)
  let chain ← chain.systemTransfer (.wallet accounts.solSource) .pool args.amountIn
  let chain ← chain.transferChecked transferFee .pool (.wallet accounts.user) tokensOut
  let userReceived ← okOr ((chain.tokens (.wallet accounts.user)).checkedSub userTokenBalanceBefore) .mathOverflow
  return (chain,
    { amountInGross := args.amountIn
      amountInNet := args.amountIn
      amountOutGross := tokensOut
      amountOutNet := userReceived
      fee := poolFee })

def handleSell (rent : U64) (transferFee : TransferFee) (accounts : SwapAccounts Key) (args : SwapArgs)
    (solReserve tokenReserve : U64) (chain : Chain Key) : Except ProgramError (Chain Key × SwapMetrics) := do
  let vaultBefore := chain.tokenReserve
  let chain ← chain.transferChecked transferFee (.wallet accounts.user) .pool args.amountIn
  let netReceived ← okOr (chain.tokenReserve.checkedSub vaultBefore) .mathOverflow
  require (0 < netReceived.val) .zeroInput
  let poolFee ← okOr (calcSwapFee netReceived) .mathOverflow
  let effectiveIn ← okOr (netReceived.checkedSub poolFee) .mathOverflow
  let solOut ← okOr (calcSwapOutput effectiveIn tokenReserve solReserve) .mathOverflow
  require (args.minimumOut.val ≤ solOut.val) .slippageExceeded
  require (solOut.val < solReserve.val) .emptyPool
  require (rent.val ≤ ((chain.lamports .pool).saturatingSub solOut).val) .minimumLiquidityRequired
  let chain ← chain.subLamports .pool solOut
  let chain ← chain.addLamports (.wallet accounts.solSource) solOut
  return (chain,
    { amountInGross := args.amountIn
      amountInNet := netReceived
      amountOutGross := solOut
      amountOutNet := solOut
      fee := poolFee })

/-- `swap::handler`. The oracle integrates the reserves that held before the trade. -/
def swap (rent : U64) (transferFee : TransferFee) (accounts : SwapAccounts Key) (args : SwapArgs)
    (chain : Chain Key) : Except ProgramError (Chain Key × SwapExecuted Key) := do
  require (0 < args.amountIn.val) .zeroInput
  let solReserve := chain.solReserve rent
  let tokenReserve := chain.tokenReserve
  require (0 < solReserve.val ∧ 0 < tokenReserve.val) .emptyPool
  let pool ← chain.pool.recordObservation solReserve tokenReserve chain.slot
  let (chain, metrics) ←
    if args.buy then handleBuy transferFee accounts args solReserve tokenReserve { chain with pool }
    else handleSell rent transferFee accounts args solReserve tokenReserve { chain with pool }
  return (chain,
    { pool := chain.address
      user := accounts.user
      solSource := accounts.solSource
      buy := args.buy
      amountInGross := metrics.amountInGross
      amountInNet := metrics.amountInNet
      amountOutGross := metrics.amountOutGross
      amountOutNet := metrics.amountOutNet
      fee := metrics.fee
      solReserveAfter := chain.solReserve rent
      tokenReserveAfter := chain.tokenReserve })

end DeepPool
