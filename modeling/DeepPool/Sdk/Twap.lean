import Mathlib.Data.Int.Bitwise
import DeepPool.State

/-! The oracle read of the TypeScript SDK (`twap.ts`). A `bigint` is an integer, its
bitwise operations act on two's complement and its division truncates. `null` is `none`. -/

namespace DeepPool.Sdk
open Library

def mask128 : Int := (1 : Int) <<< (128 : Nat) - 1

def wrapMul (a b : Int) : Int := Int.land (a * b) mask128
def wrapAdd (a b : Int) : Int := Int.land (a + b) mask128
def wrapSub (a b : Int) : Int := Int.land (a - b) mask128

structure TwapObservation where
  slot : Int
  cumSolPerTok : Int
  cumTokPerSol : Int
  deriving DecidableEq

structure TwapPoolState where
  cumSolPerTok : Int
  lastCumSlot : Int
  observations : List TwapObservation

/-- Every number of the decoded account prints as its digits and parses back. -/
def twapStateFromDecodedPool {Key : Type} (pool : Pool Key) : TwapPoolState where
  cumSolPerTok := pool.cumSolPerTok.val
  lastCumSlot := pool.lastCumSlot.val
  observations := pool.observations.toList.map fun o => ⟨o.slot.val, o.cumSolPerTok.val, o.cumTokPerSol.val⟩

/-- One turn of the loop over the observations. -/
def windowStart (target : Int) (start : Option TwapObservation) (obs : TwapObservation) : Option TwapObservation :=
  if obs.slot = 0 ∨ target < obs.slot then start
  else match start with
    | none => some obs
    | some chosen => if chosen.slot < obs.slot then some obs else some chosen

def readTwapSolPerTok (state : TwapPoolState) (solReserveNow tokenReserveNow nowSlot lookbackSlots : Int) : Option Int :=
  if tokenReserveNow = 0 then none
  else
    let priceNow := (solReserveNow <<< (64 : Nat)).tdiv tokenReserveNow
    let gap := if state.lastCumSlot < nowSlot then nowSlot - state.lastCumSlot else 0
    let cumNow := wrapAdd state.cumSolPerTok (wrapMul priceNow gap)
    let target := if lookbackSlots < nowSlot then nowSlot - lookbackSlots else 0
    match state.observations.foldl (windowStart target) none with
    | none => none
    | some start =>
      let dt := if start.slot < nowSlot then nowSlot - start.slot else 0
      if dt = 0 then none else some ((wrapSub cumNow start.cumSolPerTok).tdiv dt)

end DeepPool.Sdk
