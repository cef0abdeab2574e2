import DeepPool.Program
import DeepPool.System
import DeepPool.Library.Naming

/-! One pool's chain as a view of the world. A party is either the owner of its
associated accounts or a single token account outside these. -/

namespace DeepPool
open Library

inductive Holder (Key : Type) where
  | owner (key : Key)
  | account (key : Key)
  deriving DecidableEq

def Pool.rename {Key Name : Type} (naming : Key → Name) (pool : Pool Key) : Pool Name :=
  { config := naming pool.config
    tokenMint := naming pool.tokenMint
    tokenVault := naming pool.tokenVault
    lpMint := naming pool.lpMint
    initialSol := pool.initialSol
    initialTokens := pool.initialTokens
    bump := pool.bump
    cumSolPerTok := pool.cumSolPerTok
    cumTokPerSol := pool.cumTokPerSol
    lastCumSlot := pool.lastCumSlot
    observations := pool.observations
    obsHead := pool.obsHead }

def Seeds.rename {Key Name : Type} (naming : Key → Name) : Seeds Key → Seeds Name
  | .pool config tokenMint => .pool (naming config) (naming tokenMint)
  | .vault address => .vault (naming address)
  | .lpMint address => .lpMint (naming address)

section Events
variable {Key Name : Type} (naming : Key → Name)

def PoolCreated.rename (event : PoolCreated Key) : PoolCreated Name :=
  { event with
    pool := naming event.pool
    config := naming event.config
    tokenMint := naming event.tokenMint
    lpMint := naming event.lpMint
    creator := naming event.creator }

def SwapExecuted.rename (event : SwapExecuted Key) : SwapExecuted Name :=
  { event with
    pool := naming event.pool
    user := naming event.user
    solSource := naming event.solSource }

def LiquidityAdded.rename (event : LiquidityAdded Key) : LiquidityAdded Name :=
  { event with
    pool := naming event.pool
    provider := naming event.provider }

def LiquidityRemoved.rename (event : LiquidityRemoved Key) : LiquidityRemoved Name :=
  { event with
    pool := naming event.pool
    provider := naming event.provider }

def DeepPoolEvent.rename : DeepPoolEvent Key → DeepPoolEvent Name
  | .poolCreated event => .poolCreated (event.rename naming)
  | .swapExecuted event => .swapExecuted (event.rename naming)
  | .liquidityAdded event => .liquidityAdded (event.rename naming)
  | .liquidityRemoved event => .liquidityRemoved (event.rename naming)

end Events

/-- The accounts that make a pool, which never change. -/
structure Site (Key : Type) where
  address : Key
  tokenMint : Key
  tokenVault : Key
  lpMint : Key
  deriving DecidableEq

def Pool.site {Key : Type} (address : Key) (pool : Pool Key) : Site Key :=
  { address
    tokenMint := pool.tokenMint
    tokenVault := pool.tokenVault
    lpMint := pool.lpMint }

variable {Key : Type} [DecidableEq Key] (derive : Derivation Key)

/-- A token account of the mint that is not the associated one of its owner. -/
def World.loose (world : World Key) (mint key : Key) : Bool :=
  match world.tokenAccounts key with
  | none => false
  | some account => account.mint = mint && key ≠ derive.associated .token2022 account.owner mint

namespace Site
variable (site : Site Key) (world : World Key)

def lamportsOf : Naming (Owner (Holder Key)) Key
  | .pool => some site.address
  | .wallet (.owner key) => if key = site.address then none else some key
  | .wallet (.account _) => none

def tokensOf : Naming (Owner (Holder Key)) Key
  | .pool => some site.tokenVault
  | .wallet (.owner key) => some (derive.associated .token2022 key site.tokenMint)
  | .wallet (.account key) =>
    if world.loose derive site.tokenMint key = true ∧ key ≠ site.tokenVault then some key else none

def lpOf : Naming (Owner (Holder Key)) Key
  | .pool => some (derive.associated .token2022 site.address site.lpMint)
  | .wallet (.owner key) =>
    if key = site.address then none else some (derive.associated .token2022 key site.lpMint)
  | .wallet (.account key) => if world.loose derive site.lpMint key = true then some key else none

/-- The pool's chain, with the pool account's data given apart. -/
def chain (data : Pool (Holder Key)) : Chain (Holder Key) :=
  { slot := world.slot
    address := .owner site.address
    pool := data
    lamports := world.lamports.named site.lamportsOf
    tokens := world.amounts.named (site.tokensOf derive world)
    lp := { supply := world.supplies site.lpMint, balance := world.amounts.named (site.lpOf derive world) } }

end Site

/-- What a pool of the world looks like to itself. -/
def World.view (world : World Key) (address : Key) (pool : Pool Key) : Chain (Holder Key) :=
  (pool.site address).chain derive world (pool.rename .owner)

end DeepPool
