import DeepPool.Instructions.Swap
import DeepPool.Instructions.AddLiquidity
import DeepPool.Instructions.RemoveLiquidity
import DeepPool.Instructions.CreatePool
import DeepPool.Library.Transition
import Mathlib.Data.Nat.Notation

/-! Everything that can happen to one pool: its own instructions by any party, and
what the parties do outside it. The rent minimum is constant; the active transfer
fee may differ from one transaction to the next. -/

namespace DeepPool
open Library

inductive Action (Key : Type) where
  | swap (transferFee : TransferFee) (accounts : SwapAccounts Key) (args : SwapArgs)
  | addLiquidity (transferFee : TransferFee) (provider : Key) (args : AddLiquidityArgs)
  | removeLiquidity (transferFee : TransferFee) (provider : Key) (args : RemoveLiquidityArgs)
  | donateSol (source : Key) (amount : U64)
  | donateTokens (transferFee : TransferFee) (source : Key) (amount : U64)
  | burnLp (holder : Key) (amount : U64)
  | transferLp (source : Key) (dest : Owner Key) (amount : U64)
  /-- A wallet's SOL and tokens change without touching the pool. -/
  | outside (key : Key) (lamports tokens : U64)
  | advance (slot : U64)

variable {Key : Type} [DecidableEq Key]

/-- One transaction, with the event the program emits. -/
def step (rent : U64) (chain : Chain Key) : Action Key → Except ProgramError (Chain Key × Option (DeepPoolEvent Key))
  | .swap transferFee accounts args => do
    let (chain, event) ← DeepPool.swap rent transferFee accounts args chain
    return (chain, some (.swapExecuted event))
  | .addLiquidity transferFee provider args => do
    let (chain, event) ← DeepPool.addLiquidity rent transferFee provider args chain
    return (chain, some (.liquidityAdded event))
  | .removeLiquidity transferFee provider args => do
    let (chain, event) ← DeepPool.removeLiquidity rent transferFee provider args chain
    return (chain, some (.liquidityRemoved event))
  | .donateSol source amount => do
    let chain ← chain.systemTransfer (.wallet source) .pool amount
    return (chain, none)
  | .donateTokens transferFee source amount => do
    let chain ← chain.transferChecked transferFee (.wallet source) .pool amount
    return (chain, none)
  | .burnLp holder amount => do
    let chain ← chain.burn (.wallet holder) amount
    return (chain, none)
  | .transferLp source dest amount => do
    let lp ← orFail (chain.lp.transfer (.wallet source) dest amount) .token
    return ({ chain with lp }, none)
  | .outside key lamports tokens =>
    .ok ({ chain with
      lamports := Function.update chain.lamports (.wallet key) lamports
      tokens := Function.update chain.tokens (.wallet key) tokens }, none)
  | .advance slot =>
    if chain.slot.val ≤ slot.val then .ok ({ chain with slot }, none) else .error .system

abbrev Trace (Key : Type) := List (Action Key × Option (DeepPoolEvent Key))

def sampleParties : CreatePoolAccounts ℕ :=
  { creator := 0, solSource := 0, config := 1, tokenMint := 2, pool := 3, tokenVault := 4, lpMint := 5, bump := 255 }

/-- One small world, where every wallet starts with the same. -/
def sampleGround : Ground ℕ :=
  { slot := 1000
    lamports := fun
      | .pool => 0
      | .wallet _ => 1000000000000
    tokens := fun _ => 1000000000000 }

def sampleCreation (transferFee : TransferFee) (args : CreatePoolArgs) : Except ProgramError (Chain ℕ × PoolCreated ℕ) :=
  createPool 2000000 transferFee { unpacks := true, entries := [] } sampleParties args sampleGround

def sampleHistory (transferFee : TransferFee) (args : CreatePoolArgs) (actions : List (Action ℕ)) :
    Except ProgramError (Chain ℕ × Trace ℕ) := do
  let (born, _) ← sampleCreation transferFee args
  execute (step 2000000) born actions

/-- States some run reaches from some pool that `create_pool` accepted. -/
def Reachable (rent : U64) (chain : Chain Key) : Prop :=
  ∃ transferFee mint accounts args ground, ∃ born : Chain Key, ∃ event,
    createPool rent transferFee mint accounts args ground = .ok (born, event) ∧
      ∃ trace : Trace Key, Run (step rent) born trace chain

end DeepPool
