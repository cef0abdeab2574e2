import DeepPool.State
import DeepPool.Library.Timeline

/-! What the oracle is for: the full record of the reserves that held between the
calls that advance its clock, and of the slots at which snapshots were taken.
Nothing here wraps or is overwritten. -/

namespace DeepPool
open Library

structure Reserves where
  sol : U64
  token : U64

/-- Thin pools are not counted. -/
def Reserves.counted (reserves : Reserves) : Bool := decide (minSpotReserve.val ≤ reserves.sol.val)

/-- SOL per token as a Q64.64 number, rounded down. -/
def Reserves.solPerTok (reserves : Reserves) : Nat := reserves.sol.val * 2 ^ 64 / reserves.token.val

def Reserves.tokPerSol (reserves : Reserves) : Nat := reserves.token.val * 2 ^ 64 / reserves.sol.val

def Reserves.countedSolPerTok (reserves : Reserves) : Nat := if reserves.counted then reserves.solPerTok else 0

def Reserves.countedTokPerSol (reserves : Reserves) : Nat := if reserves.counted then reserves.tokPerSol else 0

/-- One call of `record_observation`. -/
structure Observed where
  reserves : Reserves
  now : U64

structure Journal where
  timeline : Timeline Reserves
  snapshots : List U64

def Journal.empty : Journal := ⟨[], []⟩

/-- A call at a new slot closes an interval; a snapshot follows if the reserves count
and the last one is far enough back. -/
def Journal.record (started : U64) (journal : Journal) (observed : Observed) : Journal :=
  let last := journal.timeline.latest started.val
  if observed.now.val ≤ last then journal
  else
    { timeline := ⟨observed.now.val, observed.now.val - last, observed.reserves⟩ :: journal.timeline
      snapshots :=
        if observed.reserves.counted ∧ minObsSpacingSlots.val ≤ observed.now.val - (journal.snapshots.headD 0).val then
          observed.now :: journal.snapshots
        else journal.snapshots }

def Journal.of (started : U64) (calls : List Observed) : Journal := calls.foldl (Journal.record started) .empty

/-- The snapshot a window of at least `lookback` slots begins with: the latest old
enough one among those the ring still holds. -/
structure Journal.Anchor (journal : Journal) (now lookback start : U64) : Prop where
  kept : start ∈ journal.snapshots.take twapRingSize
  old : start.val + lookback.val ≤ now.val
  latest : ∀ other ∈ journal.snapshots.take twapRingSize, other.val + lookback.val ≤ now.val → other.val ≤ start.val

/-- The time-weighted sum from the snapshot on, with the current reserves held since the last call. -/
def Journal.window (journal : Journal) (started start now : U64) (current : Reserves) : Nat :=
  (journal.timeline.since start.val).weight Reserves.countedSolPerTok +
    current.solPerTok * (now.val - journal.timeline.latest started.val)

variable {Key : Type}

def Pool.observe (pool : Pool Key) (observed : Observed) : Except ProgramError (Pool Key) :=
  pool.recordObservation observed.reserves.sol observed.reserves.token observed.now

/-- A refused call leaves the account as it was. -/
def Pool.attempt (pool : Pool Key) (observed : Observed) : Pool Key :=
  match pool.observe observed with
  | .ok next => next
  | .error _ => pool

/-- The account with every snapshot it wrote, newest first. -/
structure Taped (Key : Type) where
  pool : Pool Key
  written : List Observation

/-- A call that wrote a snapshot has moved the head past it. -/
def Taped.call (taped : Taped Key) (observed : Observed) : Taped Key :=
  let next := taped.pool.attempt observed
  { pool := next
    written := if next.obsHead = taped.pool.obsHead then taped.written else next.newestObs.toList ++ taped.written }

def Taped.of (pool : Pool Key) (started : U64) (calls : List Observed) : Taped Key :=
  calls.foldl Taped.call ⟨pool.initOracle started, []⟩

end DeepPool
