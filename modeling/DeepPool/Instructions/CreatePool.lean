import DeepPool.Chain
import DeepPool.Events

/-! The creation instruction (`instructions/create_pool.rs`). The pool PDA may hold
lamports before it exists; the vault and the LP mint start empty. -/

namespace DeepPool
open Library

/-- The Token-2022 extensions the linked library can name: the blocked ones, and the rest by number. -/
inductive ExtensionType where
  | transferHook
  | permanentDelegate
  | interestBearingConfig
  | mintCloseAuthority
  | nonTransferable
  | defaultAccountState
  | pausable
  | other (number : U16)
  deriving DecidableEq

/-- One TLV entry of a mint account. -/
inductive TlvEntry where
  | known (type : ExtensionType)
  | unknown (number : U16)
  | truncated
  deriving DecidableEq

/-- `unpacks` tells whether the base state of the account is a Token-2022 mint. -/
structure MintAccount where
  unpacks : Bool
  entries : List TlvEntry

/-- `get_extension_types` of the token library: every type in order, or an error. -/
def getExtensionTypes (entries : List TlvEntry) : Option (List ExtensionType) :=
  entries.mapM fun
    | .known type => some type
    | .unknown _ | .truncated => none

/-- What `init` with `token::mint` reads of the mint to size the new token account. -/
def tokenAccountExtensions (mint : MintAccount) : Except ProgramError (List ExtensionType) :=
  orFail (if mint.unpacks then getExtensionTypes mint.entries else none) .invalidAccountData

def extensionIsBlocked : ExtensionType → Bool
  | .transferHook | .permanentDelegate | .interestBearingConfig | .mintCloseAuthority
  | .nonTransferable | .defaultAccountState | .pausable => true
  | .other _ => false

def validateMintExtensions (mint : MintAccount) : Except ProgramError Unit := do
  require (mint.unpacks = true) .notToken2022
  ((getExtensionTypes mint.entries).getD []).forM fun ext =>
    require (extensionIsBlocked ext = false) .unsupportedMintExtension

structure CreatePoolArgs where
  initialTokenAmount : U64
  initialSolAmount : U64
  deriving DecidableEq

structure CreatePoolAccounts (Key : Type) where
  creator : Key
  solSource : Key
  config : Key
  tokenMint : Key
  pool : Key
  tokenVault : Key
  lpMint : Key
  bump : Word 8
  deriving DecidableEq

/-- The world before the pool exists. -/
structure Ground (Key : Type) where
  slot : U64
  lamports : Balances (Owner Key) 64
  tokens : Key → U64

variable {Key : Type} [DecidableEq Key]

/-- The `init` constraints: the creator tops the PDA up to the rent minimum. -/
def Ground.init (rent : U64) (accounts : CreatePoolAccounts Key) (ground : Ground Key) :
    Except ProgramError (Chain Key) :=
  let chain : Chain Key :=
    { slot := ground.slot
      address := accounts.pool
      pool := Pool.zeroed accounts.pool
      lamports := ground.lamports
      tokens := fun
        | .pool => 0
        | .wallet key => ground.tokens key
      lp := Ledger.empty }
  let required := rent.saturatingSub (ground.lamports .pool)
  if 0 < required.val then chain.systemTransfer (.wallet accounts.creator) .pool required else .ok chain

/-- Locked share of the first LP: 20% floored. -/
def lpLockCreator (lpTotal : U64) : Option U64 := do
  let locked ← (← (widen lpTotal).checkedMul (widen lpLockCreatorBps)).checkedDiv 10000
  return Word.truncate locked

/-- `create_pool`: the accounts that it makes, then the handler. -/
def createPool (rent : U64) (transferFee : TransferFee) (mint : MintAccount) (accounts : CreatePoolAccounts Key)
    (args : CreatePoolArgs) (ground : Ground Key) : Except ProgramError (Chain Key × PoolCreated Key) := do
  let chain ← ground.init rent accounts
  let _ ← tokenAccountExtensions mint
  require (minInitialSol.val ≤ args.initialSolAmount.val) .insufficientInitialSol
  require (minInitialTokens.val ≤ args.initialTokenAmount.val) .insufficientInitialTokens
  validateMintExtensions mint
  let vaultBefore := chain.tokenReserve
  let chain ← chain.transferChecked transferFee (.wallet accounts.creator) .pool args.initialTokenAmount
  let vault := chain.tokenReserve
  let netTokens ← okOr (vault.checkedSub vaultBefore) .mathOverflow
  require (0 < netTokens.val) .insufficientInitialTokens
  let chain ← chain.systemTransfer (.wallet accounts.solSource) .pool args.initialSolAmount
  let product ← okOr ((widen args.initialSolAmount).checkedMul (widen netTokens)) .mathOverflow
  let sqrt ← orFail (integerSqrt product) .panicked
  require (minLiquidity.val < sqrt.val) .insufficientInitialSol
  let lpTotal ← okOr ((Word.truncate sqrt : U64).checkedSub minLiquidity) .mathOverflow
  let lpBurn ← okOr (lpLockCreator lpTotal) .mathOverflow
  let lpToCreator ← okOr (lpTotal.checkedSub lpBurn) .mathOverflow
  require (0 < lpToCreator.val) .insufficientInitialSol
  let chain ← chain.mintTo (.wallet accounts.creator) lpToCreator
  let chain ← chain.mintTo .pool lpBurn
  let pool : Pool Key := { chain.pool with
    config := accounts.config
    tokenMint := accounts.tokenMint
    tokenVault := accounts.tokenVault
    lpMint := accounts.lpMint
    initialSol := args.initialSolAmount
    initialTokens := netTokens
    bump := accounts.bump }
  let chain := { chain with pool := pool.initOracle chain.slot }
  return (chain,
    { pool := chain.address
      config := accounts.config
      tokenMint := accounts.tokenMint
      lpMint := accounts.lpMint
      creator := accounts.creator
      solInGross := args.initialSolAmount
      solInNet := args.initialSolAmount
      tokensInGross := args.initialTokenAmount
      tokensInNet := netTokens
      solReserveAfter := chain.solReserve rent
      tokenReserveAfter := vault
      lpSupplyAfter := lpTotal
      lpToCreator
      lpLocked := lpBurn })

end DeepPool
