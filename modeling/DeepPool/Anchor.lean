import DeepPool.Instructions.AddLiquidity
import DeepPool.Instructions.CreatePool
import DeepPool.Instructions.RemoveLiquidity
import DeepPool.Instructions.Swap

/-! The four handlers with Anchor's copies of the accounts. An account is deserialized
once, and its copy keeps the old contents until it is reloaded, whatever the calls in
between did to the account. Lamports are always read live. -/

namespace DeepPool.Anchor
open Library

variable {Key : Type}

/-- `tokenAccount` is the copy of the token account of the wallet that signs. -/
structure Context (Key : Type) where
  live : Chain Key
  pool : Pool Key
  tokenVault : U64
  lpMint : U64
  tokenAccount : U64

namespace Context

def load (signer : Key) (chain : Chain Key) : Context Key :=
  { live := chain
    pool := chain.pool
    tokenVault := chain.tokenReserve
    lpMint := chain.lp.supply
    tokenAccount := chain.tokens (.wallet signer) }

/-- A call of another program, or a write to lamports: no copy is refreshed. -/
def invoke (ctx : Context Key) (call : Chain Key → Except ProgramError (Chain Key)) :
    Except ProgramError (Context Key) := do
  let live ← call ctx.live
  return { ctx with live }

def reloadTokenVault (ctx : Context Key) : Context Key := { ctx with tokenVault := ctx.live.tokenReserve }

def reloadLpMint (ctx : Context Key) : Context Key := { ctx with lpMint := ctx.live.lp.supply }

def reloadTokenAccount (signer : Key) (ctx : Context Key) : Context Key :=
  { ctx with tokenAccount := ctx.live.tokens (.wallet signer) }

/-- The copy of the account that the program owns is written back. -/
def exit (ctx : Context Key) : Chain Key := { ctx.live with pool := ctx.pool }

end Context

variable [DecidableEq Key]

def handleBuy (transferFee : TransferFee) (accounts : SwapAccounts Key) (args : SwapArgs)
    (solReserve tokenReserve : U64) (ctx : Context Key) : Except ProgramError (Context Key × SwapMetrics) := do
  let poolFee ← okOr (calcSwapFee args.amountIn) .mathOverflow
  let effectiveIn ← okOr (args.amountIn.checkedSub poolFee) .mathOverflow
  let tokensOut ← okOr (calcSwapOutput effectiveIn solReserve tokenReserve) .mathOverflow
  require (args.minimumOut.val ≤ tokensOut.val) .slippageExceeded
  require (tokensOut.val < tokenReserve.val) .emptyPool
  let userTokenBalanceBefore := ctx.tokenAccount
  let ctx ← ctx.invoke fun chain => chain.systemTransfer (.wallet accounts.solSource) .pool args.amountIn
  let ctx ← ctx.invoke fun chain => chain.transferChecked transferFee .pool (.wallet accounts.user) tokensOut
  let ctx := ctx.reloadTokenAccount accounts.user
  let userReceived ← okOr (ctx.tokenAccount.checkedSub userTokenBalanceBefore) .mathOverflow
  return (ctx,
    { amountInGross := args.amountIn
      amountInNet := args.amountIn
      amountOutGross := tokensOut
      amountOutNet := userReceived
      fee := poolFee })

def handleSell (rent : U64) (transferFee : TransferFee) (accounts : SwapAccounts Key) (args : SwapArgs)
    (solReserve tokenReserve : U64) (ctx : Context Key) : Except ProgramError (Context Key × SwapMetrics) := do
  let vaultBefore := ctx.tokenVault
  let ctx ← ctx.invoke fun chain => chain.transferChecked transferFee (.wallet accounts.user) .pool args.amountIn
  let ctx := ctx.reloadTokenVault
  let netReceived ← okOr (ctx.tokenVault.checkedSub vaultBefore) .mathOverflow
  require (0 < netReceived.val) .zeroInput
  let poolFee ← okOr (calcSwapFee netReceived) .mathOverflow
  let effectiveIn ← okOr (netReceived.checkedSub poolFee) .mathOverflow
  let solOut ← okOr (calcSwapOutput effectiveIn tokenReserve solReserve) .mathOverflow
  require (args.minimumOut.val ≤ solOut.val) .slippageExceeded
  require (solOut.val < solReserve.val) .emptyPool
  require (rent.val ≤ ((ctx.live.lamports .pool).saturatingSub solOut).val) .minimumLiquidityRequired
  let ctx ← ctx.invoke fun chain => chain.subLamports .pool solOut
  let ctx ← ctx.invoke fun chain => chain.addLamports (.wallet accounts.solSource) solOut
  return (ctx,
    { amountInGross := args.amountIn
      amountInNet := netReceived
      amountOutGross := solOut
      amountOutNet := solOut
      fee := poolFee })

def swap (rent : U64) (transferFee : TransferFee) (accounts : SwapAccounts Key) (args : SwapArgs)
    (chain : Chain Key) : Except ProgramError (Chain Key × SwapExecuted Key) := do
  let ctx := Context.load accounts.user chain
  require (0 < args.amountIn.val) .zeroInput
  let solReserve := ctx.live.solReserve rent
  let tokenReserve := ctx.tokenVault
  require (0 < solReserve.val ∧ 0 < tokenReserve.val) .emptyPool
  let pool ← ctx.pool.recordObservation solReserve tokenReserve ctx.live.slot
  let ctx := { ctx with pool }
  let (ctx, metrics) ←
    if args.buy then handleBuy transferFee accounts args solReserve tokenReserve ctx
    else handleSell rent transferFee accounts args solReserve tokenReserve ctx
  let solReserveAfter := ctx.live.solReserve rent
  let ctx := ctx.reloadTokenVault
  let tokenReserveAfter := ctx.tokenVault
  return (ctx.exit,
    { pool := ctx.live.address
      user := accounts.user
      solSource := accounts.solSource
      buy := args.buy
      amountInGross := metrics.amountInGross
      amountInNet := metrics.amountInNet
      amountOutGross := metrics.amountOutGross
      amountOutNet := metrics.amountOutNet
      fee := metrics.fee
      solReserveAfter
      tokenReserveAfter })

def addLiquidity (rent : U64) (transferFee : TransferFee) (provider : Key) (args : AddLiquidityArgs)
    (chain : Chain Key) : Except ProgramError (Chain Key × LiquidityAdded Key) := do
  let ctx := Context.load provider chain
  require (0 < args.tokenAmount.val) .zeroDeposit
  let solReserve := ctx.live.solReserve rent
  let tokenReserve := ctx.tokenVault
  require (0 < solReserve.val ∧ 0 < tokenReserve.val) .emptyPool
  let lpSupply := ctx.lpMint
  require (0 < lpSupply.val) .emptyPool
  let worstCaseSol ← okOr (calcProportionalCeil args.tokenAmount tokenReserve solReserve) .mathOverflow
  require (0 < worstCaseSol.val) .zeroDeposit
  require (worstCaseSol.val ≤ args.maxSolAmount.val) .solSlippageExceeded
  let vaultBefore := ctx.tokenVault
  let ctx ← ctx.invoke fun chain => chain.transferChecked transferFee (.wallet provider) .pool args.tokenAmount
  let ctx := ctx.reloadTokenVault
  let netTokens ← okOr (ctx.tokenVault.checkedSub vaultBefore) .mathOverflow
  require (0 < netTokens.val) .zeroDeposit
  let solRequired ← okOr (calcProportionalCeil netTokens tokenReserve solReserve) .mathOverflow
  require (0 < solRequired.val) .zeroDeposit
  let ctx ← ctx.invoke fun chain => chain.systemTransfer (.wallet provider) .pool solRequired
  let lpAmount ← okOr (calcLpMint lpSupply netTokens tokenReserve) .mathOverflow
  require (0 < lpAmount.val) .zeroDeposit
  require (args.minLpOut.val ≤ lpAmount.val) .lpOutputSlippage
  let lpBurn ← okOr (lpLock lpAmount) .mathOverflow
  let lpToProvider ← okOr (lpAmount.checkedSub lpBurn) .mathOverflow
  require (0 < lpToProvider.val) .zeroDeposit
  let ctx ← ctx.invoke fun chain => chain.mintTo (.wallet provider) lpToProvider
  let ctx ← ctx.invoke fun chain => chain.mintTo .pool lpBurn
  let solReserveAfter := ctx.live.solReserve rent
  let tokenReserveAfter := ctx.tokenVault
  let ctx := ctx.reloadLpMint
  let lpSupplyAfter := ctx.lpMint
  return (ctx.exit,
    { pool := ctx.live.address
      provider
      solInGross := solRequired
      solInNet := solRequired
      tokensInGross := args.tokenAmount
      tokensInNet := netTokens
      lpToProvider
      lpLocked := lpBurn
      solReserveAfter
      tokenReserveAfter
      lpSupplyAfter })

def removeLiquidity (rent : U64) (transferFee : TransferFee) (provider : Key) (args : RemoveLiquidityArgs)
    (chain : Chain Key) : Except ProgramError (Chain Key × LiquidityRemoved Key) := do
  let ctx := Context.load provider chain
  require (args.lpAmount.val ≤ (chain.lp.balance (.wallet provider)).val) .insufficientLpTokens
  require (0 < args.lpAmount.val) .zeroInput
  let solReserve := ctx.live.solReserve rent
  let tokenReserve := ctx.tokenVault
  let lpSupply := ctx.lpMint
  require (0 < solReserve.val ∧ 0 < tokenReserve.val) .emptyPool
  require (0 < lpSupply.val) .emptyPool
  let solOut ← okOr (calcLpRedeem args.lpAmount solReserve lpSupply) .mathOverflow
  let tokensOut ← okOr (calcLpRedeem args.lpAmount tokenReserve lpSupply) .mathOverflow
  require (args.minSolOut.val ≤ solOut.val) .solOutputSlippage
  require (args.minTokensOut.val ≤ tokensOut.val) .tokenOutputSlippage
  let solRemaining ← okOr (solReserve.checkedSub solOut) .mathOverflow
  let tokensRemaining ← okOr (tokenReserve.checkedSub tokensOut) .mathOverflow
  require (minPoolReserveSol.val ≤ solRemaining.val ∧ minPoolReserveTokens.val ≤ tokensRemaining.val)
    .minimumLiquidityRequired
  let ctx ← ctx.invoke fun chain => chain.burn (.wallet provider) args.lpAmount
  let providerTokenBalanceBefore := ctx.tokenAccount
  let ctx ← ctx.invoke fun chain => chain.transferChecked transferFee .pool (.wallet provider) tokensOut
  let ctx := ctx.reloadTokenAccount provider
  let providerReceived ← okOr (ctx.tokenAccount.checkedSub providerTokenBalanceBefore) .mathOverflow
  let ctx ← ctx.invoke fun chain => chain.subLamports .pool solOut
  let ctx ← ctx.invoke fun chain => chain.addLamports (.wallet provider) solOut
  let solReserveAfter := ctx.live.solReserve rent
  let ctx := ctx.reloadTokenVault
  let tokenReserveAfter := ctx.tokenVault
  let ctx := ctx.reloadLpMint
  let lpSupplyAfter := ctx.lpMint
  return (ctx.exit,
    { pool := ctx.live.address
      provider
      lpBurned := args.lpAmount
      solOutGross := solOut
      solOutNet := solOut
      tokensOutGross := tokensOut
      tokensOutNet := providerReceived
      solReserveAfter
      tokenReserveAfter
      lpSupplyAfter })

/-- The copies are taken after the `init` constraints, when the vault and the mint are empty. -/
def createPool (rent : U64) (transferFee : TransferFee) (mint : MintAccount) (accounts : CreatePoolAccounts Key)
    (args : CreatePoolArgs) (ground : Ground Key) : Except ProgramError (Chain Key × PoolCreated Key) := do
  let chain ← ground.init rent accounts
  let _ ← tokenAccountExtensions mint
  let ctx := Context.load accounts.creator chain
  require (minInitialSol.val ≤ args.initialSolAmount.val) .insufficientInitialSol
  require (minInitialTokens.val ≤ args.initialTokenAmount.val) .insufficientInitialTokens
  validateMintExtensions mint
  let vaultBefore := ctx.tokenVault
  let ctx ← ctx.invoke fun chain =>
    chain.transferChecked transferFee (.wallet accounts.creator) .pool args.initialTokenAmount
  let ctx := ctx.reloadTokenVault
  let netTokens ← okOr (ctx.tokenVault.checkedSub vaultBefore) .mathOverflow
  require (0 < netTokens.val) .insufficientInitialTokens
  let ctx ← ctx.invoke fun chain => chain.systemTransfer (.wallet accounts.solSource) .pool args.initialSolAmount
  let product ← okOr ((widen args.initialSolAmount).checkedMul (widen netTokens)) .mathOverflow
  let sqrt ← orFail (integerSqrt product) .panicked
  require (minLiquidity.val < sqrt.val) .insufficientInitialSol
  let lpTotal ← okOr ((Word.truncate sqrt : U64).checkedSub minLiquidity) .mathOverflow
  let lpBurn ← okOr (lpLockCreator lpTotal) .mathOverflow
  let lpToCreator ← okOr (lpTotal.checkedSub lpBurn) .mathOverflow
  require (0 < lpToCreator.val) .insufficientInitialSol
  let ctx ← ctx.invoke fun chain => chain.mintTo (.wallet accounts.creator) lpToCreator
  let ctx ← ctx.invoke fun chain => chain.mintTo .pool lpBurn
  let pool : Pool Key := { ctx.pool with
    config := accounts.config
    tokenMint := accounts.tokenMint
    tokenVault := accounts.tokenVault
    lpMint := accounts.lpMint
    initialSol := args.initialSolAmount
    initialTokens := netTokens
    bump := accounts.bump }
  let ctx := { ctx with pool := pool.initOracle ctx.live.slot }
  let solReserveAfter := ctx.live.solReserve rent
  let tokenReserveAfter := ctx.tokenVault
  return (ctx.exit,
    { pool := ctx.live.address
      config := accounts.config
      tokenMint := accounts.tokenMint
      lpMint := accounts.lpMint
      creator := accounts.creator
      solInGross := args.initialSolAmount
      solInNet := args.initialSolAmount
      tokensInGross := args.initialTokenAmount
      tokensInNet := netTokens
      solReserveAfter
      tokenReserveAfter
      lpSupplyAfter := lpTotal
      lpToCreator
      lpLocked := lpBurn })

end DeepPool.Anchor
