import DeepPool.World
import DeepPool.Instructions.Swap
import DeepPool.Instructions.AddLiquidity
import DeepPool.Instructions.RemoveLiquidity
import DeepPool.Library.Transition
import Mathlib.Data.Nat.Notation

/-! The four instructions over all accounts, each with the accounts it is passed and
the constraints they have to meet, and everything other programs and parties can do. -/

namespace DeepPool.Program
open Library

inductive Constraint where
  | signer
  | notInitialized
  | seeds
  | address
  | tokenProgram
  | tokenMint
  | tokenOwner
  | associated
  deriving DecidableEq

inductive Refusal where
  | constraint (violated : Constraint)
  | program (error : ProgramError)
  deriving DecidableEq

structure Swap (Key : Type) where
  user : Key
  solSource : Key
  pool : Key
  tokenMint : Key
  tokenVault : Key
  userTokenAccount : Key
  tokenProgram : TokenProgram
  deriving DecidableEq

structure AddLiquidity (Key : Type) where
  provider : Key
  pool : Key
  tokenMint : Key
  tokenVault : Key
  lpMint : Key
  providerTokenAccount : Key
  providerLpAccount : Key
  poolLpAccount : Key
  tokenProgram : TokenProgram
  deriving DecidableEq

structure RemoveLiquidity (Key : Type) where
  provider : Key
  pool : Key
  tokenMint : Key
  tokenVault : Key
  lpMint : Key
  providerTokenAccount : Key
  providerLpAccount : Key
  tokenProgram : TokenProgram
  deriving DecidableEq

structure CreatePool (Key : Type) where
  creator : Key
  solSource : Key
  config : Key
  tokenMint : Key
  pool : Key
  tokenVault : Key
  lpMint : Key
  creatorTokenAccount : Key
  creatorLpAccount : Key
  poolLpAccount : Key
  tokenProgram : TokenProgram
  deriving DecidableEq

variable {Key : Type} [DecidableEq Key]

section Constraints
variable (derive : Derivation Key) (world : World Key)

def signer (key : Key) : Except Refusal Unit := assure (derive.signs key = true) (.constraint .signer)

def initialized {Data : Type} (data : Option Data) : Except Refusal Data :=
  data.elim (.error (.constraint .notInitialized)) .ok

/-- `seeds = [POOL_SEED, pool.config, pool.token_mint], bump = pool.bump`. -/
def loadPool (key : Key) : Except Refusal (Pool Key) := do
  let pool ← initialized (world.pools key)
  assure (derive.programAddress (.pool pool.config pool.tokenMint) pool.bump = some key) (.constraint .seeds)
  return pool

/-- `associated_token::mint`, `associated_token::authority` and `associated_token::token_program`. -/
def associatedToken (tokenProgram : TokenProgram) (key mint wallet : Key) : Except Refusal Unit := do
  let account ← initialized (world.tokenAccounts key)
  let kind ← initialized (world.mints account.mint)
  assure (kind.program = tokenProgram) (.constraint .tokenProgram)
  assure (account.mint = mint) (.constraint .tokenMint)
  assure (account.owner = wallet) (.constraint .tokenOwner)
  assure (key = derive.associated tokenProgram wallet mint) (.constraint .associated)

/-- `init_if_needed` of an associated account. -/
def initAssociated (rents : Rents Key) (tokenProgram : TokenProgram) (payer key mint wallet : Key) :
    Except Refusal (World Key) := do
  assure (key = derive.associated tokenProgram wallet mint) (.constraint .associated)
  if (world.tokenAccounts key).isSome then
    associatedToken derive world tokenProgram key mint wallet
    return world
  else
    (do
      let world ← world.payRent payer key (rents.tokenAccount mint)
      world.openAccount key ⟨mint, wallet⟩).mapError .program

def token2022 (tokenProgram : TokenProgram) : Except Refusal Unit :=
  assure (tokenProgram = .token2022) (.program (.deepPool .notToken2022))

def Swap.validate (accounts : Swap Key) : Except Refusal (Pool Key) := do
  signer derive accounts.user
  signer derive accounts.solSource
  let pool ← loadPool derive world accounts.pool
  let _ ← initialized (world.mints accounts.tokenMint)
  assure (accounts.tokenMint = pool.tokenMint) (.constraint .address)
  let _ ← initialized (world.tokenAccounts accounts.tokenVault)
  assure (accounts.tokenVault = pool.tokenVault) (.constraint .address)
  associatedToken derive world accounts.tokenProgram accounts.userTokenAccount accounts.tokenMint accounts.user
  token2022 accounts.tokenProgram
  return pool

/-- The provider's LP account is made where it is missing. -/
def AddLiquidity.validate (rents : Rents Key) (accounts : AddLiquidity Key) :
    Except Refusal (Pool Key × World Key) := do
  signer derive accounts.provider
  let pool ← loadPool derive world accounts.pool
  let _ ← initialized (world.mints accounts.tokenMint)
  assure (accounts.tokenMint = pool.tokenMint) (.constraint .address)
  let _ ← initialized (world.tokenAccounts accounts.tokenVault)
  assure (accounts.tokenVault = pool.tokenVault) (.constraint .address)
  let _ ← initialized (world.mints accounts.lpMint)
  assure (accounts.lpMint = pool.lpMint) (.constraint .address)
  associatedToken derive world accounts.tokenProgram accounts.providerTokenAccount accounts.tokenMint accounts.provider
  let world ← initAssociated derive world rents accounts.tokenProgram accounts.provider accounts.providerLpAccount
    accounts.lpMint accounts.provider
  associatedToken derive world accounts.tokenProgram accounts.poolLpAccount accounts.lpMint accounts.pool
  token2022 accounts.tokenProgram
  return (pool, world)

def RemoveLiquidity.validate (accounts : RemoveLiquidity Key) (args : RemoveLiquidityArgs) :
    Except Refusal (Pool Key) := do
  signer derive accounts.provider
  let pool ← loadPool derive world accounts.pool
  let _ ← initialized (world.mints accounts.tokenMint)
  assure (accounts.tokenMint = pool.tokenMint) (.constraint .address)
  let _ ← initialized (world.tokenAccounts accounts.tokenVault)
  assure (accounts.tokenVault = pool.tokenVault) (.constraint .address)
  let _ ← initialized (world.mints accounts.lpMint)
  assure (accounts.lpMint = pool.lpMint) (.constraint .address)
  associatedToken derive world accounts.tokenProgram accounts.providerTokenAccount accounts.tokenMint accounts.provider
  associatedToken derive world accounts.tokenProgram accounts.providerLpAccount accounts.lpMint accounts.provider
  assure (args.lpAmount.val ≤ (world.amounts accounts.providerLpAccount).val)
    (.program (.deepPool .insufficientLpTokens))
  token2022 accounts.tokenProgram
  return pool

/-- `init` at a derived address: the bump that `find_program_address` gives is the one kept. -/
def derived (seeds : Seeds Key) (key : Key) : Except Refusal (Word 8) := do
  let (address, bump) ← (derive.findProgramAddress seeds).elim (.error (.constraint .seeds)) .ok
  assure (address = key) (.constraint .seeds)
  return bump

/-- The accounts that creation makes, before the handler runs. The pool's own data is
assigned by the handler; until then the account only exists. -/
def CreatePool.validate (rents : Rents Key) (accounts : CreatePool Key) :
    Except Refusal (Word 8 × Mint Key × World Key) := do
  signer derive accounts.creator
  signer derive accounts.solSource
  signer derive accounts.config
  let mint ← initialized (world.mints accounts.tokenMint)
  assure (mint.program = accounts.tokenProgram) (.constraint .tokenProgram)
  assure (mint.program = .token2022) (.program (.deepPool .notToken2022))
  let bump ← derived derive (.pool accounts.config accounts.tokenMint) accounts.pool
  let world ← (do
    let world ← world.payRent accounts.creator accounts.pool rents.pool
    assure (world.vacant accounts.pool) .system
    return world.setPool accounts.pool (Pool.zeroed accounts.pool)).mapError .program
  let _ ← derived derive (.vault accounts.pool) accounts.tokenVault
  let world ← (do
    let _ ← tokenAccountExtensions mint.data
    let world ← world.payRent accounts.creator accounts.tokenVault (rents.tokenAccount accounts.tokenMint)
    world.openAccount accounts.tokenVault ⟨accounts.tokenMint, accounts.pool⟩).mapError .program
  let _ ← derived derive (.lpMint accounts.pool) accounts.lpMint
  let world ← (do
    let world ← world.payRent accounts.creator accounts.lpMint rents.mint
    world.openMint accounts.lpMint { Mint.ofPool accounts.pool with program := accounts.tokenProgram }).mapError .program
  associatedToken derive world accounts.tokenProgram accounts.creatorTokenAccount accounts.tokenMint accounts.creator
  let world ← initAssociated derive world rents accounts.tokenProgram accounts.creator accounts.creatorLpAccount
    accounts.lpMint accounts.creator
  let world ← initAssociated derive world rents accounts.tokenProgram accounts.creator accounts.poolLpAccount
    accounts.lpMint accounts.pool
  token2022 accounts.tokenProgram
  return (bump, mint, world)

end Constraints

section Handlers
variable (rents : Rents Key)

def handleBuy (accounts : Swap Key) (args : SwapArgs) (solReserve tokenReserve : U64) (world : World Key) :
    Except ProgramError (World Key × SwapMetrics) := do
  let poolFee ← okOr (calcSwapFee args.amountIn) .mathOverflow
  let effectiveIn ← okOr (args.amountIn.checkedSub poolFee) .mathOverflow
  let tokensOut ← okOr (calcSwapOutput effectiveIn solReserve tokenReserve) .mathOverflow
  require (args.minimumOut.val ≤ tokensOut.val) .slippageExceeded
  require (tokensOut.val < tokenReserve.val) .emptyPool
  let userTokenBalanceBefore := world.amounts accounts.userTokenAccount
  let world ← world.systemTransfer accounts.solSource accounts.pool args.amountIn
  let world ← world.transferChecked accounts.tokenVault accounts.tokenMint accounts.userTokenAccount accounts.pool
    tokensOut
  let userReceived ← okOr ((world.amounts accounts.userTokenAccount).checkedSub userTokenBalanceBefore) .mathOverflow
  return (world,
    { amountInGross := args.amountIn
      amountInNet := args.amountIn
      amountOutGross := tokensOut
      amountOutNet := userReceived
      fee := poolFee })

def handleSell (accounts : Swap Key) (args : SwapArgs) (solReserve tokenReserve : U64) (world : World Key) :
    Except ProgramError (World Key × SwapMetrics) := do
  let vaultBefore := world.amounts accounts.tokenVault
  let world ← world.transferChecked accounts.userTokenAccount accounts.tokenMint accounts.tokenVault accounts.user
    args.amountIn
  let netReceived ← okOr ((world.amounts accounts.tokenVault).checkedSub vaultBefore) .mathOverflow
  require (0 < netReceived.val) .zeroInput
  let poolFee ← okOr (calcSwapFee netReceived) .mathOverflow
  let effectiveIn ← okOr (netReceived.checkedSub poolFee) .mathOverflow
  let solOut ← okOr (calcSwapOutput effectiveIn tokenReserve solReserve) .mathOverflow
  require (args.minimumOut.val ≤ solOut.val) .slippageExceeded
  require (solOut.val < solReserve.val) .emptyPool
  require (rents.pool.val ≤ ((world.lamports accounts.pool).saturatingSub solOut).val) .minimumLiquidityRequired
  let world ← world.subLamports accounts.pool solOut
  let world ← world.addLamports accounts.solSource solOut
  return (world,
    { amountInGross := args.amountIn
      amountInNet := netReceived
      amountOutGross := solOut
      amountOutNet := solOut
      fee := poolFee })

/-- `swap::handler`. -/
def Swap.handler (accounts : Swap Key) (args : SwapArgs) (pool : Pool Key) (world : World Key) :
    Except ProgramError (World Key × SwapExecuted Key) := do
  require (0 < args.amountIn.val) .zeroInput
  let solReserve := world.solReserve rents accounts.pool
  let tokenReserve := world.amounts accounts.tokenVault
  require (0 < solReserve.val ∧ 0 < tokenReserve.val) .emptyPool
  let pool ← pool.recordObservation solReserve tokenReserve world.slot
  let world := world.setPool accounts.pool pool
  let (world, metrics) ←
    if args.buy then handleBuy accounts args solReserve tokenReserve world
    else handleSell rents accounts args solReserve tokenReserve world
  return (world,
    { pool := accounts.pool
      user := accounts.user
      solSource := accounts.solSource
      buy := args.buy
      amountInGross := metrics.amountInGross
      amountInNet := metrics.amountInNet
      amountOutGross := metrics.amountOutGross
      amountOutNet := metrics.amountOutNet
      fee := metrics.fee
      solReserveAfter := world.solReserve rents accounts.pool
      tokenReserveAfter := world.amounts accounts.tokenVault })

/-- `add_liquidity::handler`. -/
def AddLiquidity.handler (accounts : AddLiquidity Key) (args : AddLiquidityArgs) (world : World Key) :
    Except ProgramError (World Key × LiquidityAdded Key) := do
  require (0 < args.tokenAmount.val) .zeroDeposit
  let solReserve := world.solReserve rents accounts.pool
  let tokenReserve := world.amounts accounts.tokenVault
  require (0 < solReserve.val ∧ 0 < tokenReserve.val) .emptyPool
  let lpSupply := world.supplies accounts.lpMint
  require (0 < lpSupply.val) .emptyPool
  let worstCaseSol ← okOr (calcProportionalCeil args.tokenAmount tokenReserve solReserve) .mathOverflow
  require (0 < worstCaseSol.val) .zeroDeposit
  require (worstCaseSol.val ≤ args.maxSolAmount.val) .solSlippageExceeded
  let vaultBefore := world.amounts accounts.tokenVault
  let world ← world.transferChecked accounts.providerTokenAccount accounts.tokenMint accounts.tokenVault
    accounts.provider args.tokenAmount
  let vault := world.amounts accounts.tokenVault
  let netTokens ← okOr (vault.checkedSub vaultBefore) .mathOverflow
  require (0 < netTokens.val) .zeroDeposit
  let solRequired ← okOr (calcProportionalCeil netTokens tokenReserve solReserve) .mathOverflow
  require (0 < solRequired.val) .zeroDeposit
  let world ← world.systemTransfer accounts.provider accounts.pool solRequired
  let lpAmount ← okOr (calcLpMint lpSupply netTokens tokenReserve) .mathOverflow
  require (0 < lpAmount.val) .zeroDeposit
  require (args.minLpOut.val ≤ lpAmount.val) .lpOutputSlippage
  let lpBurn ← okOr (lpLock lpAmount) .mathOverflow
  let lpToProvider ← okOr (lpAmount.checkedSub lpBurn) .mathOverflow
  require (0 < lpToProvider.val) .zeroDeposit
  let world ← world.mintTo accounts.lpMint accounts.providerLpAccount accounts.pool lpToProvider
  let world ← world.mintTo accounts.lpMint accounts.poolLpAccount accounts.pool lpBurn
  return (world,
    { pool := accounts.pool
      provider := accounts.provider
      solInGross := solRequired
      solInNet := solRequired
      tokensInGross := args.tokenAmount
      tokensInNet := netTokens
      lpToProvider
      lpLocked := lpBurn
      solReserveAfter := world.solReserve rents accounts.pool
      tokenReserveAfter := vault
      lpSupplyAfter := world.supplies accounts.lpMint })

/-- `remove_liquidity::handler`. -/
def RemoveLiquidity.handler (accounts : RemoveLiquidity Key) (args : RemoveLiquidityArgs) (world : World Key) :
    Except ProgramError (World Key × LiquidityRemoved Key) := do
  require (0 < args.lpAmount.val) .zeroInput
  let solReserve := world.solReserve rents accounts.pool
  let tokenReserve := world.amounts accounts.tokenVault
  let lpSupply := world.supplies accounts.lpMint
  require (0 < solReserve.val ∧ 0 < tokenReserve.val) .emptyPool
  require (0 < lpSupply.val) .emptyPool
  let solOut ← okOr (calcLpRedeem args.lpAmount solReserve lpSupply) .mathOverflow
  let tokensOut ← okOr (calcLpRedeem args.lpAmount tokenReserve lpSupply) .mathOverflow
  require (args.minSolOut.val ≤ solOut.val) .solOutputSlippage
  require (args.minTokensOut.val ≤ tokensOut.val) .tokenOutputSlippage
  let solRemaining ← okOr (solReserve.checkedSub solOut) .mathOverflow
  let tokensRemaining ← okOr (tokenReserve.checkedSub tokensOut) .mathOverflow
  require (minPoolReserveSol.val ≤ solRemaining.val ∧ minPoolReserveTokens.val ≤ tokensRemaining.val)
    .minimumLiquidityRequired
  let world ← world.burn accounts.lpMint accounts.providerLpAccount accounts.provider args.lpAmount
  let providerTokenBalanceBefore := world.amounts accounts.providerTokenAccount
  let world ← world.transferChecked accounts.tokenVault accounts.tokenMint accounts.providerTokenAccount accounts.pool
    tokensOut
  let providerReceived ←
    okOr ((world.amounts accounts.providerTokenAccount).checkedSub providerTokenBalanceBefore) .mathOverflow
  let world ← world.subLamports accounts.pool solOut
  let world ← world.addLamports accounts.provider solOut
  return (world,
    { pool := accounts.pool
      provider := accounts.provider
      lpBurned := args.lpAmount
      solOutGross := solOut
      solOutNet := solOut
      tokensOutGross := tokensOut
      tokensOutNet := providerReceived
      solReserveAfter := world.solReserve rents accounts.pool
      tokenReserveAfter := world.amounts accounts.tokenVault
      lpSupplyAfter := world.supplies accounts.lpMint })

/-- `create_pool::handler`. -/
def CreatePool.handler (accounts : CreatePool Key) (args : CreatePoolArgs) (bump : Word 8) (mint : Mint Key)
    (world : World Key) : Except ProgramError (World Key × PoolCreated Key) := do
  require (minInitialSol.val ≤ args.initialSolAmount.val) .insufficientInitialSol
  require (minInitialTokens.val ≤ args.initialTokenAmount.val) .insufficientInitialTokens
  validateMintExtensions mint.data
  let vaultBefore := world.amounts accounts.tokenVault
  let world ← world.transferChecked accounts.creatorTokenAccount accounts.tokenMint accounts.tokenVault
    accounts.creator args.initialTokenAmount
  let vault := world.amounts accounts.tokenVault
  let netTokens ← okOr (vault.checkedSub vaultBefore) .mathOverflow
  require (0 < netTokens.val) .insufficientInitialTokens
  let world ← world.systemTransfer accounts.solSource accounts.pool args.initialSolAmount
  let product ← okOr ((widen args.initialSolAmount).checkedMul (widen netTokens)) .mathOverflow
  let sqrt ← orFail (integerSqrt product) .panicked
  require (minLiquidity.val < sqrt.val) .insufficientInitialSol
  let lpTotal ← okOr ((Word.truncate sqrt : U64).checkedSub minLiquidity) .mathOverflow
  let lpBurn ← okOr (lpLockCreator lpTotal) .mathOverflow
  let lpToCreator ← okOr (lpTotal.checkedSub lpBurn) .mathOverflow
  require (0 < lpToCreator.val) .insufficientInitialSol
  let world ← world.mintTo accounts.lpMint accounts.creatorLpAccount accounts.pool lpToCreator
  let world ← world.mintTo accounts.lpMint accounts.poolLpAccount accounts.pool lpBurn
  let pool : Pool Key := { Pool.zeroed accounts.pool with
    config := accounts.config
    tokenMint := accounts.tokenMint
    tokenVault := accounts.tokenVault
    lpMint := accounts.lpMint
    initialSol := args.initialSolAmount
    initialTokens := netTokens
    bump := bump }
  let world := world.setPool accounts.pool (pool.initOracle world.slot)
  return (world,
    { pool := accounts.pool
      config := accounts.config
      tokenMint := accounts.tokenMint
      lpMint := accounts.lpMint
      creator := accounts.creator
      solInGross := args.initialSolAmount
      solInNet := args.initialSolAmount
      tokensInGross := args.initialTokenAmount
      tokensInNet := netTokens
      solReserveAfter := world.solReserve rents accounts.pool
      tokenReserveAfter := vault
      lpSupplyAfter := lpTotal
      lpToCreator
      lpLocked := lpBurn })

end Handlers

/-- `AuthorityType`, as far as a mint's authorities matter here. -/
inductive MintAuthority where
  | mintTokens
  | freezeAccount
  | transferFeeConfig
  deriving DecidableEq

def authorityOf (mint : Mint Key) : MintAuthority → Option Key
  | .mintTokens => mint.authority
  | .freezeAccount => mint.freezeAuthority
  | .transferFeeConfig => mint.feeAuthority

def withAuthority (mint : Mint Key) (next : Option Key) : MintAuthority → Mint Key
  | .mintTokens => { mint with authority := next }
  | .freezeAccount => { mint with freezeAuthority := next }
  | .transferFeeConfig => { mint with feeAuthority := next }

/-- What can happen: an instruction of the program with any accounts, or what other programs
and the holders of keys do to lamports, token accounts and mints. -/
inductive Action (Key : Type) where
  | createPool (accounts : CreatePool Key) (args : CreatePoolArgs)
  | swap (accounts : Swap Key) (args : SwapArgs)
  | addLiquidity (accounts : AddLiquidity Key) (args : AddLiquidityArgs)
  | removeLiquidity (accounts : RemoveLiquidity Key) (args : RemoveLiquidityArgs)
  /-- Lamports of an account that the program does not own move in any way. -/
  | moveLamports (source dest : Key) (amount : U64)
  | transferTokens (source mint dest authority : Key) (amount : U64)
  | mintTokens (mint dest authority : Key) (amount : U64)
  | burnTokens (mint source authority : Key) (amount : U64)
  | openAccount (tokenProgram : TokenProgram) (key mint owner : Key)
  | incinerateTokens (mint source : Key) (amount : U64)
  | harvestFees (source mint : Key)
  | withdrawFees (mint dest : Key)
  | collectFees (source mint dest : Key)
  | approve (key authority delegate : Key) (amount : U64)
  | revoke (key authority : Key)
  | assignCloseAuthority (key authority : Key) (next : Option Key)
  | assignOwner (key authority owner : Key)
  | closeAccount (key authority : Key)
  | setFrozen (key authority : Key) (frozen : Bool)
  | openMint (key : Key) (mint : Mint Key)
  | assignAuthority (key authority : Key) (role : MintAuthority) (next : Option Key)
  | setTransferFee (key authority : Key) (transferFee : TransferFee)
  | advance (slot : U64)

/-- Who may close an account. -/
def closer (account : TokenAccount Key) (standing : Standing Key) : Key := standing.closeAuthority.getD account.owner

variable (derive : Derivation Key) (rents : Rents Key)

/-- One instruction, with the event the program emits. -/
def step (world : World Key) : Action Key → Except Refusal (World Key × Option (DeepPoolEvent Key))
  | .createPool accounts args => do
    let (bump, mint, world) ← accounts.validate derive world rents
    let (world, event) ← (accounts.handler rents args bump mint world).mapError .program
    return (world, some (.poolCreated event))
  | .swap accounts args => do
    let pool ← accounts.validate derive world
    let (world, event) ← (accounts.handler rents args pool world).mapError .program
    return (world, some (.swapExecuted event))
  | .addLiquidity accounts args => do
    let (_, world) ← accounts.validate derive world rents
    let (world, event) ← (accounts.handler rents args world).mapError .program
    return (world, some (.liquidityAdded event))
  | .removeLiquidity accounts args => do
    let _ ← accounts.validate derive world args
    let (world, event) ← (accounts.handler rents args world).mapError .program
    return (world, some (.liquidityRemoved event))
  | .moveLamports source dest amount => do
    assure (world.pools source = none) (.program .system)
    let world ← (do (← world.subLamports source amount).addLamports dest amount).mapError .program
    return (world, none)
  | .transferTokens source mint dest authority amount => do
    signer derive authority
    let world ← (world.transferChecked source mint dest authority amount).mapError .program
    return (world, none)
  | .mintTokens mint dest authority amount => do
    signer derive authority
    let world ← (world.mintTo mint dest authority amount).mapError .program
    return (world, none)
  | .burnTokens mint source authority amount => do
    signer derive authority
    let world ← (world.burn mint source authority amount).mapError .program
    return (world, none)
  | .openAccount tokenProgram key mint owner => do
    assure (derive.signs key = true ∨ key = derive.associated tokenProgram owner mint) (.constraint .signer)
    let kind ← initialized (world.mints mint)
    assure (kind.program = tokenProgram) (.constraint .tokenProgram)
    let world ← (world.openAccount key ⟨mint, owner⟩).mapError .program
    return (world, none)
  | .incinerateTokens mint source amount => do
    let account ← initialized (world.tokenAccounts source)
    assure (derive.incinerates account.owner = true) (.constraint .tokenOwner)
    let world ← (world.incinerate mint source amount).mapError .program
    return (world, none)
  | .harvestFees source mint => do
    let world ← (world.harvestFees source mint).mapError .program
    return (world, none)
  | .withdrawFees mint dest => do
    let world ← (world.withdrawFees mint dest).mapError .program
    return (world, none)
  | .collectFees source mint dest => do
    let world ← (world.collectFees source mint dest).mapError .program
    return (world, none)
  | .approve key authority delegate amount => do
    signer derive authority
    let account ← initialized (world.tokenAccounts key)
    assure (account.owner = authority) (.constraint .tokenOwner)
    assure ((world.standing key).frozen = false) (.program .token)
    return (world.setDelegate key (some ⟨delegate, amount⟩), none)
  | .revoke key authority => do
    signer derive authority
    let account ← initialized (world.tokenAccounts key)
    assure (account.owner = authority ∨ (world.standing key).delegate.any (fun given => given.delegate = authority) = true)
      (.constraint .tokenOwner)
    assure ((world.standing key).frozen = false) (.program .token)
    return (world.setDelegate key none, none)
  | .assignCloseAuthority key authority next => do
    signer derive authority
    let account ← initialized (world.tokenAccounts key)
    assure (closer account (world.standing key) = authority) (.constraint .tokenOwner)
    assure ((world.standing key).frozen = false) (.program .token)
    return (world.setStanding key { world.standing key with closeAuthority := next }, none)
  | .assignOwner key authority owner => do
    signer derive authority
    let account ← initialized (world.tokenAccounts key)
    assure (account.owner = authority) (.constraint .tokenOwner)
    assure ((world.standing key).frozen = false) (.program .token)
    -- An associated account of the newer program is made with an owner that never changes.
    assure (key ≠ derive.associated .token2022 account.owner account.mint) (.constraint .tokenOwner)
    return ({ world.setDelegate key none with
      tokenAccounts := Function.update world.tokenAccounts key (some { account with owner }) }, none)
  | .closeAccount key authority => do
    signer derive authority
    let account ← initialized (world.tokenAccounts key)
    assure (closer account (world.standing key) = authority ∨ derive.incinerates account.owner = true)
      (.constraint .tokenOwner)
    assure (world.amounts key = 0 ∧ world.withheld key = 0) (.program .token)
    return ({ world.setStanding key .initial with
      tokenAccounts := Function.update world.tokenAccounts key none }, none)
  | .setFrozen key authority frozen => do
    signer derive authority
    let account ← initialized (world.tokenAccounts key)
    let mint ← initialized (world.mints account.mint)
    assure (mint.freezeAuthority = some authority) (.constraint .tokenOwner)
    assure ((world.standing key).frozen ≠ frozen) (.program .token)
    return (world.setStanding key { world.standing key with frozen }, none)
  | .openMint key mint => do
    signer derive key
    let world ← (world.openMint key mint).mapError .program
    return (world, none)
  | .assignAuthority key authority role next => do
    signer derive authority
    let mint ← initialized (world.mints key)
    assure (authorityOf mint role = some authority) (.constraint .tokenOwner)
    return ({ world with mints := Function.update world.mints key (some (withAuthority mint next role)) }, none)
  | .setTransferFee key authority transferFee => do
    signer derive authority
    let mint ← initialized (world.mints key)
    assure (mint.feeAuthority = some authority) (.constraint .tokenOwner)
    return ({ world with mints := Function.update world.mints key (some { mint with transferFee }) }, none)
  | .advance slot =>
    if world.slot.val ≤ slot.val then .ok ({ world with slot }, none) else .error (.program .system)

abbrev Trace (Key : Type) := List (Action Key × Option (DeepPoolEvent Key))

/-- Every token account belongs to a mint, an associated address of the newer program holds
nothing but the associated account, what does not exist has no balance, and an owner that
cannot sign has approved nobody. -/
structure Orderly (world : World Key) : Prop where
  minted : ∀ {key account}, world.tokenAccounts key = some account → world.mints account.mint ≠ none
  absent : ∀ {key}, world.tokenAccounts key = none →
    world.amounts key = 0 ∧ world.withheld key = 0 ∧ world.standing key = .initial
  unminted : ∀ {key}, world.mints key = none → world.supplies key = 0 ∧ world.harvested key = 0
  approved : ∀ {key account}, world.tokenAccounts key = some account → derive.signs account.owner = false →
    (world.standing key).delegate = none
  associated : ∀ {wallet mint account},
    world.tokenAccounts (derive.associated .token2022 wallet mint) = some account → account = ⟨mint, wallet⟩

/-- Worlds that some run reaches from one without pools. -/
def Reachable (world : World Key) : Prop :=
  ∃ start, Orderly derive start ∧ (∀ key, start.pools key = none) ∧
    ∃ trace : Trace Key, Run (step derive rents) start trace world

/-! A small world: every address is what it is derived from. -/

inductive SampleKey where
  | wallet (number : ℕ)
  | pool (config tokenMint : SampleKey)
  | vault (pool : SampleKey)
  | lpMint (pool : SampleKey)
  | associated (tokenProgram : TokenProgram) (wallet mint : SampleKey)
  deriving DecidableEq

def sampleAddress : Seeds SampleKey → SampleKey
  | .pool config tokenMint => .pool config tokenMint
  | .vault pool => .vault pool
  | .lpMint pool => .lpMint pool

def sampleDerivation : Derivation SampleKey where
  programAddress := fun seeds bump => if bump = 255 then some (sampleAddress seeds) else none
  findProgramAddress := fun seeds => some (sampleAddress seeds, 255)
  associated := .associated
  signs
    | .wallet _ => true
    | _ => false
  incinerates := fun _ => false
  found := by
    rintro seeds key bump found
    cases found
    rfl
  associated_inj := by
    rintro first second wallet other mint otherMint same
    cases same
    exact ⟨rfl, rfl⟩
  apart := by
    rintro seeds bump program wallet mint same
    simp only [Option.ite_none_right_eq_some, Option.some.injEq] at same
    cases seeds <;> cases same.2
  programAddress_silent := by
    rintro seeds bump key same
    simp only [Option.ite_none_right_eq_some, Option.some.injEq] at same
    obtain ⟨_, rfl⟩ := same
    cases seeds <;> rfl
  programAddress_kept := fun _ => rfl
  associated_silent := rfl
  incinerates_silent := nofun

def sampleRents : Rents SampleKey := ⟨2000000, 1500000, fun _ => 2100000⟩

/-- One mint, whose tokens the first two wallets hold. -/
def sampleWorld : World SampleKey :=
  { slot := 1000
    lamports := fun key => if key = .wallet 0 ∨ key = .wallet 1 then 1000000000000 else 0
    pools := fun _ => none
    mints := fun
      | .wallet 2 => some ⟨.token2022, none, none, none, ⟨true, []⟩, TransferFee.none⟩
      | _ => none
    supplies := fun key => if key = .wallet 2 then 2000000000000 else 0
    tokenAccounts := fun key =>
      if key = .associated .token2022 (.wallet 0) (.wallet 2) then some ⟨.wallet 2, .wallet 0⟩
      else if key = .associated .token2022 (.wallet 1) (.wallet 2) then some ⟨.wallet 2, .wallet 1⟩
      else none
    amounts := fun key =>
      if key = .associated .token2022 (.wallet 0) (.wallet 2) then 1000000000000
      else if key = .associated .token2022 (.wallet 1) (.wallet 2) then 1000000000000
      else 0
    withheld := fun _ => 0
    harvested := fun _ => 0
    standing := fun _ => .initial }

def samplePool (config : ℕ) : SampleKey := .pool (.wallet config) (.wallet 2)

def sampleCreate (config : ℕ) : Action SampleKey :=
  .createPool
    { creator := .wallet 0
      solSource := .wallet 0
      config := .wallet config
      tokenMint := .wallet 2
      pool := samplePool config
      tokenVault := .vault (samplePool config)
      lpMint := .lpMint (samplePool config)
      creatorTokenAccount := .associated .token2022 (.wallet 0) (.wallet 2)
      creatorLpAccount := .associated .token2022 (.wallet 0) (.lpMint (samplePool config))
      poolLpAccount := .associated .token2022 (samplePool config) (.lpMint (samplePool config))
      tokenProgram := .token2022 }
    ⟨1000000000, 5000000000⟩

def sampleSwap (config user : ℕ) (args : SwapArgs) : Action SampleKey :=
  .swap
    { user := .wallet user
      solSource := .wallet user
      pool := samplePool config
      tokenMint := .wallet 2
      tokenVault := .vault (samplePool config)
      userTokenAccount := .associated .token2022 (.wallet user) (.wallet 2)
      tokenProgram := .token2022 }
    args

def sampleAdd (config provider : ℕ) (args : AddLiquidityArgs) : Action SampleKey :=
  .addLiquidity
    { provider := .wallet provider
      pool := samplePool config
      tokenMint := .wallet 2
      tokenVault := .vault (samplePool config)
      lpMint := .lpMint (samplePool config)
      providerTokenAccount := .associated .token2022 (.wallet provider) (.wallet 2)
      providerLpAccount := .associated .token2022 (.wallet provider) (.lpMint (samplePool config))
      poolLpAccount := .associated .token2022 (samplePool config) (.lpMint (samplePool config))
      tokenProgram := .token2022 }
    args

def sampleRun (actions : List (Action SampleKey)) : Except Refusal (World SampleKey × Trace SampleKey) :=
  execute (step sampleDerivation sampleRents) sampleWorld actions

end DeepPool.Program
