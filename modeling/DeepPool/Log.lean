import Mathlib.Algebra.BigOperators.Group.List.Basic
import DeepPool.System

/-! What the events of a pool say about its reserves and its LP supply, and what changes
them without an event. -/

namespace DeepPool
open Library

/-- The reserves and the LP supply, or what a step adds to them. -/
@[ext]
structure Flow where
  sol : Int
  token : Int
  supply : Int
  deriving DecidableEq

namespace Flow

instance : Add Flow := ⟨fun a b => ⟨a.sol + b.sol, a.token + b.token, a.supply + b.supply⟩⟩
instance : Zero Flow := ⟨⟨0, 0, 0⟩⟩

@[simp] theorem add_sol (a b : Flow) : (a + b).sol = a.sol + b.sol := rfl
@[simp] theorem add_token (a b : Flow) : (a + b).token = a.token + b.token := rfl
@[simp] theorem add_supply (a b : Flow) : (a + b).supply = a.supply + b.supply := rfl
@[simp] theorem zero_sol : (0 : Flow).sol = 0 := rfl
@[simp] theorem zero_token : (0 : Flow).token = 0 := rfl
@[simp] theorem zero_supply : (0 : Flow).supply = 0 := rfl

instance : AddCommMonoid Flow where
  add_assoc a b c := Flow.ext (add_assoc _ _ _) (add_assoc _ _ _) (add_assoc _ _ _)
  zero_add a := Flow.ext (zero_add _) (zero_add _) (zero_add _)
  add_zero a := Flow.ext (add_zero _) (add_zero _) (add_zero _)
  add_comm a b := Flow.ext (add_comm _ _) (add_comm _ _) (add_comm _ _)
  nsmul := nsmulRec

end Flow

variable {Key : Type}

def Chain.amounts (rent : U64) (chain : Chain Key) : Flow :=
  ⟨(chain.solReserve rent).val, chain.tokenReserve.val, chain.lp.supply.val⟩

/-- What an event says came in and went out. -/
def DeepPoolEvent.flow : DeepPoolEvent Key → Flow
  | .poolCreated event => ⟨event.solInNet.val, event.tokensInNet.val, event.lpToCreator.val + event.lpLocked.val⟩
  | .swapExecuted event =>
    if event.buy then ⟨event.amountInNet.val, -event.amountOutGross.val, 0⟩
    else ⟨-event.amountOutGross.val, event.amountInNet.val, 0⟩
  | .liquidityAdded event => ⟨event.solInNet.val, event.tokensInNet.val, event.lpToProvider.val + event.lpLocked.val⟩
  | .liquidityRemoved event => ⟨-event.solOutGross.val, -event.tokensOutGross.val, -event.lpBurned.val⟩

def DeepPoolEvent.solReserveAfter : DeepPoolEvent Key → U64
  | .poolCreated event => event.solReserveAfter
  | .swapExecuted event => event.solReserveAfter
  | .liquidityAdded event => event.solReserveAfter
  | .liquidityRemoved event => event.solReserveAfter

def DeepPoolEvent.tokenReserveAfter : DeepPoolEvent Key → U64
  | .poolCreated event => event.tokenReserveAfter
  | .swapExecuted event => event.tokenReserveAfter
  | .liquidityAdded event => event.tokenReserveAfter
  | .liquidityRemoved event => event.tokenReserveAfter

/-- A swap does not state the LP supply. -/
def DeepPoolEvent.lpSupplyAfter : DeepPoolEvent Key → Option U64
  | .poolCreated event => some event.lpSupplyAfter
  | .swapExecuted _ => none
  | .liquidityAdded event => some event.lpSupplyAfter
  | .liquidityRemoved event => some event.lpSupplyAfter

def DeepPoolEvent.creates : DeepPoolEvent Key → Bool
  | .poolCreated _ => true
  | _ => false

/-- What an event shows is what the pool holds. -/
structure DeepPoolEvent.States (rent : U64) (event : DeepPoolEvent Key) (chain : Chain Key) : Prop where
  sol : event.solReserveAfter = chain.solReserve rent
  token : event.tokenReserveAfter = chain.tokenReserve
  supply : ∀ supply ∈ event.lpSupplyAfter, supply = chain.lp.supply

/-- What an action that emits no event brings to the pool or burns of its LP. -/
def Action.gift : Action Key → Flow
  | .donateSol _ amount => ⟨amount.val, 0, 0⟩
  | .donateTokens transferFee _ amount => ⟨0, (transferFee.net amount).val, 0⟩
  | .burnLp _ amount => ⟨0, 0, -amount.val⟩
  | _ => 0

def Trace.events (trace : Trace Key) : List (DeepPoolEvent Key) := trace.filterMap Prod.snd

/-- The flows that the events of a run state. -/
def Trace.stated (trace : Trace Key) : Flow := (trace.events.map DeepPoolEvent.flow).sum

/-- The flows of a run that no event states. -/
def Trace.gifts (trace : Trace Key) : Flow := (trace.map fun entry => entry.1.gift).sum

end DeepPool
