import DeepPool.View

/-! What a client asks of one pool. Which accounts the instruction takes follows from
what is asked, who asks and what the pool's account names. -/

namespace DeepPool
open Library

/-- The owner may spend this much, unless it has made itself a delegate for less. -/
def Standing.Covers {Key : Type} (standing : Standing Key) (owner : Key) (amount : U64) : Prop :=
  ∀ given ∈ standing.delegate, given.delegate = owner → amount.val ≤ given.amount.val

instance {Key : Type} [DecidableEq Key] (standing : Standing Key) (owner : Key) (amount : U64) :
    Decidable (standing.Covers owner amount) :=
  inferInstanceAs (Decidable (∀ given ∈ standing.delegate, given.delegate = owner → amount.val ≤ given.amount.val))

inductive Request (Key : Type) where
  | swap (user solSource : Key) (args : SwapArgs)
  | addLiquidity (provider : Key) (args : AddLiquidityArgs)
  | removeLiquidity (provider : Key) (args : RemoveLiquidityArgs)

namespace Request
variable {Key : Type}

/-- Who trades or provides. -/
def party : Request Key → Key
  | .swap user _ _ => user
  | .addLiquidity provider _ => provider
  | .removeLiquidity provider _ => provider

def signers : Request Key → List Key
  | .swap user solSource _ => [user, solSource]
  | .addLiquidity provider _ => [provider]
  | .removeLiquidity provider _ => [provider]

/-- Who sends lamports through the system program. -/
def payer : Request Key → Option Key
  | .swap _ solSource args => if args.buy then some solSource else none
  | .addLiquidity provider _ => some provider
  | .removeLiquidity _ _ => none

/-- The mints of which the party has to have its associated account. -/
def mints (pool : Pool Key) : Request Key → List Key
  | .swap _ _ _ => [pool.tokenMint]
  | .addLiquidity _ _ => [pool.tokenMint]
  | .removeLiquidity _ _ => [pool.tokenMint, pool.lpMint]

/-- What leaves an account of the party: tokens of which mint, and how many. -/
def spends (pool : Pool Key) : Request Key → Option (Key × U64)
  | .swap _ _ args => if args.buy then none else some (pool.tokenMint, args.amountIn)
  | .addLiquidity _ args => some (pool.tokenMint, args.tokenAmount)
  | .removeLiquidity _ args => some (pool.lpMint, args.lpAmount)

section Instructions
variable (derive : Derivation Key) (address : Key) (pool : Pool Key)

def swapAccounts (user solSource : Key) : Program.Swap Key :=
  { user
    solSource
    pool := address
    tokenMint := pool.tokenMint
    tokenVault := pool.tokenVault
    userTokenAccount := derive.associated .token2022 user pool.tokenMint
    tokenProgram := .token2022 }

def addLiquidityAccounts (provider : Key) : Program.AddLiquidity Key :=
  { provider
    pool := address
    tokenMint := pool.tokenMint
    tokenVault := pool.tokenVault
    lpMint := pool.lpMint
    providerTokenAccount := derive.associated .token2022 provider pool.tokenMint
    providerLpAccount := derive.associated .token2022 provider pool.lpMint
    poolLpAccount := derive.associated .token2022 address pool.lpMint
    tokenProgram := .token2022 }

def removeLiquidityAccounts (provider : Key) : Program.RemoveLiquidity Key :=
  { provider
    pool := address
    tokenMint := pool.tokenMint
    tokenVault := pool.tokenVault
    lpMint := pool.lpMint
    providerTokenAccount := derive.associated .token2022 provider pool.tokenMint
    providerLpAccount := derive.associated .token2022 provider pool.lpMint
    tokenProgram := .token2022 }

/-- The instruction, with every account derived. -/
def action : Request Key → Program.Action Key
  | .swap user solSource args => .swap (swapAccounts derive address pool user solSource) args
  | .addLiquidity provider args => .addLiquidity (addLiquidityAccounts derive address pool provider) args
  | .removeLiquidity provider args => .removeLiquidity (removeLiquidityAccounts derive address pool provider) args

end Instructions

/-- The same request as the pool's own system has it. -/
def own (transferFee : TransferFee) : Request Key → Action (Holder Key)
  | .swap user solSource args => .swap transferFee { user := .owner user, solSource := .owner solSource } args
  | .addLiquidity provider args => .addLiquidity transferFee (.owner provider) args
  | .removeLiquidity provider args => .removeLiquidity transferFee (.owner provider) args

variable [DecidableEq Key]

/-- The accounts that the instruction makes before its handler runs. -/
def prepare (derive : Derivation Key) (rents : Rents Key) (pool : Pool Key) (world : World Key) :
    Request Key → Except Program.Refusal (World Key)
  | .addLiquidity provider _ =>
    Program.initAssociated derive world rents .token2022 provider (derive.associated .token2022 provider pool.lpMint)
      pool.lpMint provider
  | .swap _ _ _ => .ok world
  | .removeLiquidity _ _ => .ok world

/-- What the request needs of the accounts, besides the terms of the pool. -/
structure Ready (derive : Derivation Key) (pool : Pool Key) (world : World Key) (request : Request Key) : Prop where
  signed : ∀ key ∈ request.signers, derive.signs key = true
  held : ∀ mint ∈ request.mints pool, world.tokenAccounts (derive.associated .token2022 request.party mint) ≠ none
  paying : ∀ key ∈ request.payer, world.vacant key
  thawed : ∀ key ∈ [pool.tokenVault, derive.associated .token2022 request.party pool.tokenMint],
    (world.standing key).frozen = false
  covered : ∀ {mint amount}, request.spends pool = some (mint, amount) →
    (world.standing (derive.associated .token2022 request.party mint)).Covers request.party amount

end Request
end DeepPool
