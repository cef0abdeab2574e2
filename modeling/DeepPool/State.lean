import DeepPool.Math

/-! The pool account and its price oracle (`state.rs`), with the errors every
instruction can return (`error.rs`). -/

namespace DeepPool
open Library

inductive DeepPoolError where
  | insufficientInitialSol
  | insufficientInitialTokens
  | notToken2022
  | slippageExceeded
  | zeroInput
  | emptyPool
  | mathOverflow
  | solSlippageExceeded
  | insufficientLpTokens
  | minimumLiquidityRequired
  | zeroDeposit
  | solOutputSlippage
  | tokenOutputSlippage
  | unsupportedMintExtension
  | lpOutputSlippage
  deriving DecidableEq, Repr

/-- The program's own errors, the failures of the system and token programs it
calls, and the panics of plain arithmetic and indexing. -/
inductive ProgramError where
  | deepPool (error : DeepPoolError)
  | system
  | token
  | invalidAccountData
  | panicked
  deriving DecidableEq, Repr

def require (condition : Prop) [Decidable condition] (error : DeepPoolError) : Except ProgramError Unit :=
  if condition then .ok () else .error (.deepPool error)

def okOr {α : Type} (value : Option α) (error : DeepPoolError) : Except ProgramError α :=
  value.elim (.error (.deepPool error)) .ok

def orFail {α : Type} (value : Option α) (failure : ProgramError) : Except ProgramError α :=
  value.elim (.error failure) .ok

structure Observation where
  slot : U64
  cumSolPerTok : U128
  cumTokPerSol : U128
  deriving DecidableEq

instance : Inhabited Observation := ⟨⟨0, 0, 0⟩⟩

structure Pool (Key : Type) where
  config : Key
  tokenMint : Key
  tokenVault : Key
  lpMint : Key
  initialSol : U64
  initialTokens : U64
  bump : Word 8
  cumSolPerTok : U128
  cumTokPerSol : U128
  lastCumSlot : U64
  observations : Vector Observation twapRingSize
  obsHead : U16
  deriving DecidableEq

namespace Pool
variable {Key : Type}

/-- A new account's data before the handler assigns it. -/
def zeroed (key : Key) : Pool Key :=
  { config := key
    tokenMint := key
    tokenVault := key
    lpMint := key
    initialSol := 0
    initialTokens := 0
    bump := 0
    cumSolPerTok := 0
    cumTokPerSol := 0
    lastCumSlot := 0
    observations := Vector.replicate twapRingSize default
    obsHead := 0 }

def initOracle (pool : Pool Key) (now : U64) : Pool Key :=
  { pool with
    cumSolPerTok := 0
    cumTokPerSol := 0
    lastCumSlot := now
    observations := Vector.replicate twapRingSize default
    obsHead := 0 }

/-- `none` is an index out of bounds. -/
def newestObs (pool : Pool Key) : Option Observation :=
  pool.observations[if pool.obsHead.val = 0 then twapRingSize - 1 else pool.obsHead.val - 1]?

/-- `none` is an index out of bounds. -/
def writeObservation (pool : Pool Key) (now : U64) : Option (Pool Key) :=
  if inside : pool.obsHead.val < twapRingSize then
    some { pool with
      observations := pool.observations.set pool.obsHead.val ⟨now, pool.cumSolPerTok, pool.cumTokPerSol⟩
      obsHead := ⟨(pool.obsHead.val + 1) % twapRingSize,
        Nat.lt_of_lt_of_le (Nat.mod_lt _ (by decide)) (by decide)⟩ }
  else none

def recordObservation (pool : Pool Key) (solReserve tokenReserve now : U64) : Except ProgramError (Pool Key) :=
  if now.val ≤ pool.lastCumSlot.val then .ok pool
  else if solReserve.val < minSpotReserve.val then .ok { pool with lastCumSlot := now }
  else do
    let slotDelta ← orFail (now.checkedSub pool.lastCumSlot) .panicked
    let solPerTok ← okOr (priceQ64 solReserve tokenReserve) .mathOverflow
    let tokPerSol ← okOr (priceQ64 tokenReserve solReserve) .mathOverflow
    let advanced := { pool with
      cumSolPerTok := accumulatePrice pool.cumSolPerTok solPerTok slotDelta
      cumTokPerSol := accumulatePrice pool.cumTokPerSol tokPerSol slotDelta
      lastCumSlot := now }
    let newest ← orFail advanced.newestObs .panicked
    if minObsSpacingSlots.val ≤ (now.saturatingSub newest.slot).val then
      orFail (advanced.writeObservation now) .panicked
    else .ok advanced

/-- The scan of `read_twap_sol_per_tok` for the newest observation that is old enough. -/
def windowStart (target : U64) (start : Option Observation) (obs : Observation) : Option Observation :=
  if obs.slot.val = 0 ∨ target.val < obs.slot.val then start
  else match start with
    | none => some obs
    | some chosen => if chosen.slot.val < obs.slot.val then some obs else some chosen

def readTwapSolPerTok (pool : Pool Key) (solReserveNow tokenReserveNow now lookbackSlots : U64) : Option U128 := do
  let gap := now.saturatingSub pool.lastCumSlot
  let priceNow ← priceQ64 solReserveNow tokenReserveNow
  let cumNow := accumulatePrice pool.cumSolPerTok priceNow gap
  let target := now.saturatingSub lookbackSlots
  let start ← pool.observations.toList.foldl (windowStart target) none
  let dt := now.saturatingSub start.slot
  if dt.val = 0 then none
  else (cumNow.wrappingSub start.cumSolPerTok).checkedDiv (widen dt)

end Pool
end DeepPool
