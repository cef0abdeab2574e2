import DeepPool.Proofs.Dilution
import Mathlib.Tactic.Linarith
import Mathlib.Tactic.FieldSimp

/-! Deposits and withdrawals move both reserves in proportion. What rounding takes away
from the proportion is less than a unit on either side, and always the provider's. -/

namespace DeepPool
open Library

variable {Key : Type} {rent : U64} {transferFee : TransferFee} {provider : Key} {before middle after : Chain Key}

/-- How far the reserves left the ratio they had. -/
def Chain.drift (rent : U64) (before after : Chain Key) : ℤ :=
  (after.solReserve rent).val * before.tokenReserve.val - (before.solReserve rent).val * after.tokenReserve.val

/-- Both reserves are a common multiple of what they were, rounded up by less than a unit. -/
structure Chain.Scaled (rent : U64) (factor : ℚ) (before after : Chain Key) : Prop where
  sol : factor * (before.solReserve rent).val ≤ (after.solReserve rent).val
  solUnit : ((after.solReserve rent).val : ℚ) < factor * (before.solReserve rent).val + 1
  token : factor * before.tokenReserve.val ≤ after.tokenReserve.val
  tokenUnit : (after.tokenReserve.val : ℚ) < factor * before.tokenReserve.val + 1

section Rounding
variable {whole paid parts divisor : ℕ}

private theorem floor_unit (positive : 0 < divisor) (floored : paid = parts / divisor) :
    (paid : ℚ) ≤ parts / divisor ∧ (parts : ℚ) / divisor < paid + 1 := by
  have scale : (0 : ℚ) < divisor := Nat.cast_pos.mpr positive
  rw [le_div_iff₀ scale, div_lt_iff₀ scale, floored]
  constructor
  · exact_mod_cast Nat.div_mul_le_self parts divisor
  · exact_mod_cast Nat.lt_mul_of_div_lt (Nat.lt_succ_self _) positive

private theorem ceil_unit (positive : 0 < divisor) (ceiled : paid = (parts + (divisor - 1)) / divisor) :
    (parts : ℚ) / divisor ≤ paid ∧ (paid : ℚ) < parts / divisor + 1 := by
  have scale : (0 : ℚ) < divisor := Nat.cast_pos.mpr positive
  have upper := Nat.div_mul_le_self (parts + (divisor - 1)) divisor
  have lower := Nat.lt_mul_of_div_lt (Nat.lt_succ_self ((parts + (divisor - 1)) / divisor)) positive
  rw [← ceiled] at upper lower
  rw [Nat.succ_mul] at lower
  have covered : parts ≤ paid * divisor := by omega
  have tight : paid * divisor < parts + divisor := by omega
  constructor
  · rw [div_le_iff₀ scale]
    exact_mod_cast covered
  · rw [← sub_lt_iff_lt_add, lt_div_iff₀ scale, sub_mul, one_mul, sub_lt_iff_lt_add]
    exact_mod_cast tight

end Rounding

theorem Deposited.scaled {args : AddLiquidityArgs} {event : LiquidityAdded Key}
    (deposited : Deposited rent transferFee provider args before after event) :
    before.Scaled rent (after.tokenReserve.val / before.tokenReserve.val) after := by
  have sol : (after.solReserve rent).val = (before.solReserve rent).val + event.solInNet.val :=
    congrArg Pot.first deposited.pot
  have tokens := deposited.tokensPaid
  have positive : (0 : ℚ) < before.tokenReserve.val := Nat.cast_pos.mpr deposited.token
  obtain ⟨low, high⟩ := ceil_unit deposited.token (calcProportionalCeil_some deposited.charge).2
  have share : (after.tokenReserve.val : ℚ) / before.tokenReserve.val * (before.solReserve rent).val =
      (before.solReserve rent).val +
        (event.tokensInNet.val * (before.solReserve rent).val : ℕ) / before.tokenReserve.val := by
    rw [tokens]
    push_cast
    field_simp
  have exactly : (after.tokenReserve.val : ℚ) / before.tokenReserve.val * before.tokenReserve.val =
      after.tokenReserve.val := div_mul_cancel₀ _ (ne_of_gt positive)
  constructor
  · rw [share, sol, Nat.cast_add]
    exact add_le_add_right low _
  · rw [share, sol, Nat.cast_add, add_assoc]
    exact add_lt_add_right high _
  · rw [exactly]
  · rw [exactly]
    exact lt_add_one _

private theorem remaining_share {reserve left paid supply rest burned : ℕ} (spent : reserve = left + paid)
    (retired : supply = rest + burned) (positive : 0 < supply) (floored : paid = burned * reserve / supply) :
    (rest : ℚ) / supply * reserve ≤ left ∧ (left : ℚ) < rest / supply * reserve + 1 := by
  obtain ⟨low, high⟩ := floor_unit positive floored
  have scale : (supply : ℚ) ≠ 0 := ne_of_gt (Nat.cast_pos.mpr positive)
  have kept : (rest : ℚ) / supply * reserve = reserve - (burned * reserve : ℕ) / supply := by
    rw [eq_sub_iff_add_eq, Nat.cast_mul, div_mul_eq_mul_div, ← add_div, ← add_mul, ← Nat.cast_add, ← retired,
      mul_div_cancel_left₀ _ scale]
  have left_ : (left : ℚ) = reserve - paid := by
    rw [spent, Nat.cast_add, add_sub_cancel_right]
  constructor <;> linarith

theorem Withdrawn.scaled {args : RemoveLiquidityArgs} {event : LiquidityRemoved Key}
    (withdrawn : Withdrawn rent transferFee provider args before after event) :
    before.Scaled rent (after.lp.supply.val / before.lp.supply.val) after := by
  obtain ⟨sol, tokens, shares⟩ := withdrawn.spent
  obtain ⟨low, high⟩ := remaining_share sol shares withdrawn.supply withdrawn.solShare
  obtain ⟨tokenLow, tokenHigh⟩ := remaining_share tokens shares withdrawn.supply withdrawn.tokenShare
  exact ⟨low, high, tokenLow, tokenHigh⟩

theorem Chain.Scaled.drift {factor : ℚ} (scaled : before.Scaled rent factor after)
    (sol : 0 < (before.solReserve rent).val) (token : 0 < before.tokenReserve.val) :
    -((before.solReserve rent).val : ℤ) < before.drift rent after ∧
      before.drift rent after < before.tokenReserve.val := by
  have solScale : (0 : ℚ) < (before.solReserve rent).val := Nat.cast_pos.mpr sol
  have tokenScale : (0 : ℚ) < before.tokenReserve.val := Nat.cast_pos.mpr token
  have solLow := mul_le_mul_of_nonneg_right scaled.sol tokenScale.le
  have solHigh := mul_lt_mul_of_pos_right scaled.solUnit tokenScale
  have tokenLow := mul_le_mul_of_nonneg_left scaled.token solScale.le
  have tokenHigh := mul_lt_mul_of_pos_left scaled.tokenUnit solScale
  have common : factor * (before.solReserve rent).val * before.tokenReserve.val =
      (before.solReserve rent).val * (factor * before.tokenReserve.val) := by ring
  rw [add_mul, one_mul] at solHigh
  rw [mul_add, mul_one] at tokenHigh
  have cast : ((before.drift rent after : ℤ) : ℚ) = (after.solReserve rent).val * before.tokenReserve.val -
      (before.solReserve rent).val * after.tokenReserve.val := by
    rw [Chain.drift]
    push_cast
    rfl
  constructor
  · have lower : (-((before.solReserve rent).val : ℤ) : ℚ) < (before.drift rent after : ℤ) := by
      rw [cast]
      push_cast
      linarith
    exact_mod_cast lower
  · have upper : ((before.drift rent after : ℤ) : ℚ) < (before.tokenReserve.val : ℤ) := by
      rw [cast]
      push_cast
      linarith
    exact_mod_cast upper

/-- A deposit is never worth more than it cost, at once or in part. -/
theorem Deposited.unprofitable {withdrawer : Key} {addFee removeFee : TransferFee} {addArgs : AddLiquidityArgs}
    {removeArgs : RemoveLiquidityArgs} {added : LiquidityAdded Key} {removed : LiquidityRemoved Key}
    (deposited : Deposited rent addFee provider addArgs before middle added)
    (withdrawn : Withdrawn rent removeFee withdrawer removeArgs middle after removed)
    (part : removeArgs.lpAmount.val ≤ added.lpToProvider.val) :
    removed.solOutGross.val ≤ added.solInGross.val ∧ removed.tokensOutGross.val ≤ added.tokensInNet.val := by
  have grown := deposited.pot
  have sol := congrArg Pot.first grown
  have tokens := congrArg Pot.second grown
  have shares := congrArg Pot.shares grown
  obtain ⟨solIssued, tokensIssued⟩ := deposited.backs.issued_le sol tokens shares
  have within : removed.lpBurned.val ≤ added.lpToProvider.val + added.lpLocked.val := by
    rw [withdrawn.lpAmount]
    omega
  simp only [Chain.pot] at sol tokens shares
  constructor
  · rw [deposited.charged]
    apply round_trip solIssued within
    rw [withdrawn.solShare, sol, shares]
    rfl
  · apply round_trip tokensIssued within
    rw [withdrawn.tokenShare, tokens, shares]
    rfl

variable [DecidableEq Key]

/-- Liquidity moves the reserves in proportion up to a unit of rounding on each, in favour
of the pool, and leaves the oracle alone. -/
theorem liquidity_keeps_price (rent : U64) :
    (∀ (transferFee : TransferFee) (provider : Key) (args : AddLiquidityArgs) (before after : Chain Key)
      (event : LiquidityAdded Key), addLiquidity rent transferFee provider args before = .ok (after, event) →
        0 ≤ before.drift rent after ∧ before.drift rent after < before.tokenReserve.val ∧
          after.pool = before.pool ∧ ∃ factor, before.Scaled rent factor after) ∧
    ∀ (transferFee : TransferFee) (provider : Key) (args : RemoveLiquidityArgs) (before after : Chain Key)
      (event : LiquidityRemoved Key), removeLiquidity rent transferFee provider args before = .ok (after, event) →
        -((before.solReserve rent).val : ℤ) < before.drift rent after ∧
          before.drift rent after < before.tokenReserve.val ∧
            after.pool = before.pool ∧ ∃ factor, before.Scaled rent factor after := by
  constructor
  · intro transferFee provider args before after event done
    have deposited := addLiquidity_ok done
    have price := (Pot.Dearer.deposit _ deposited.rounds.1 deposited.rounds.2).first
    rw [← deposited.pot] at price
    have forward : 0 ≤ before.drift rent after := by
      rw [Chain.drift, sub_nonneg]
      exact_mod_cast price
    exact ⟨forward, (deposited.scaled.drift deposited.sol deposited.token).2, deposited.oracle, _, deposited.scaled⟩
  · intro transferFee provider args before after event done
    have withdrawn := removeLiquidity_ok done
    obtain ⟨low, high⟩ := withdrawn.scaled.drift withdrawn.sol withdrawn.token
    exact ⟨low, high, withdrawn.oracle, _, withdrawn.scaled⟩

/-- A deposit of three tokens into one world, and the withdrawal of some of its LP. -/
def sampleVisit : Except ProgramError (Chain ℕ × Chain ℕ × Chain ℕ × LiquidityAdded ℕ × LiquidityRemoved ℕ) := do
  let (before, _) ← sampleHistory .none ⟨5000000, 5000000000⟩ [.swap .none ⟨7, 7⟩ ⟨123457, 0, true⟩]
  let (middle, added) ← addLiquidity 2000000 .none 9 ⟨3, 1000000000, 0⟩ before
  let (after, removed) ← removeLiquidity 2000000 .none 9 ⟨80, 0, 0⟩ middle
  return (before, middle, after, added, removed)

theorem liquidity_keeps_price_sample : ∃ before middle after : Chain ℕ,
    0 < before.drift 2000000 middle ∧ before.drift 2000000 middle < before.tokenReserve.val ∧
      middle.drift 2000000 after < middle.tokenReserve.val := by
  have found : accepts sampleVisit (fun result => 0 < result.1.drift 2000000 result.2.1) = true := by decide +kernel
  obtain ⟨_, done, moved⟩ := accepts_iff.mp found
  simp only [sampleVisit, bind_ok, pure_ok] at done
  obtain ⟨⟨before, _⟩, _, ⟨middle, added⟩, adds, ⟨after, removed⟩, removes, rfl⟩ := done
  obtain ⟨deposits, withdrawals⟩ := @liquidity_keeps_price ℕ _ 2000000
  exact ⟨before, middle, after, of_decide_eq_true moved, (deposits _ _ _ _ _ _ adds).2.1,
    (withdrawals _ _ _ _ _ _ removes).2.1⟩

/-! Providers who come and go. -/

/-- One deposit and the withdrawal that follows it. -/
structure Cycle (Key : Type) where
  provider : Key
  addFee : TransferFee
  addArgs : AddLiquidityArgs
  added : LiquidityAdded Key
  withdrawer : Key
  removeFee : TransferFee
  removeArgs : RemoveLiquidityArgs
  removed : LiquidityRemoved Key

def Cycle.trace (cycle : Cycle Key) : Trace Key :=
  [(.addLiquidity cycle.addFee cycle.provider cycle.addArgs, some (.liquidityAdded cycle.added)),
    (.removeLiquidity cycle.removeFee cycle.withdrawer cycle.removeArgs, some (.liquidityRemoved cycle.removed))]

/-- However often providers come and go, the gross amounts paid out never exceed what the
deposits charged. -/
theorem cycles_never_profit {cycles : List (Cycle Key)}
    (runs : Run (step rent) before (cycles.flatMap Cycle.trace) after)
    (parts : ∀ cycle ∈ cycles, cycle.removeArgs.lpAmount.val ≤ cycle.added.lpToProvider.val) :
    (∀ cycle ∈ cycles, cycle.removed.solOutGross.val ≤ cycle.added.solInGross.val ∧
      cycle.removed.tokensOutGross.val ≤ cycle.added.tokensInNet.val) ∧
    (cycles.map fun cycle => cycle.removed.solOutGross.val).sum ≤
      (cycles.map fun cycle => cycle.added.solInGross.val).sum ∧
    (cycles.map fun cycle => cycle.removed.tokensOutGross.val).sum ≤
      (cycles.map fun cycle => cycle.added.tokensInNet.val).sum := by
  have each : ∀ cycle ∈ cycles, cycle.removed.solOutGross.val ≤ cycle.added.solInGross.val ∧
      cycle.removed.tokensOutGross.val ≤ cycle.added.tokensInNet.val := by
    induction cycles generalizing before with
    | nil =>
      intro cycle impossible
      cases impossible
    | cons first cycles ih =>
      cases runs with
      | cons adds runs =>
        cases runs with
        | cons removes rest =>
          have later := ih rest fun cycle member => parts cycle (List.mem_cons_of_mem _ member)
          intro cycle member
          rcases List.mem_cons.mp member with rfl | listed
          · cases step_ok adds with
            | addLiquidity deposited =>
              cases step_ok removes with
              | removeLiquidity withdrawn => exact deposited.unprofitable withdrawn (parts _ List.mem_cons_self)
          · exact later cycle listed
  exact ⟨each, List.sum_le_sum fun cycle member => (each cycle member).1,
    List.sum_le_sum fun cycle member => (each cycle member).2⟩

theorem cycles_never_profit_sample : ∃ added : LiquidityAdded ℕ, ∃ removed : LiquidityRemoved ℕ,
    0 < removed.solOutGross.val ∧ removed.solOutGross.val ≤ added.solInGross.val := by
  have found : accepts sampleVisit (fun result => 80 ≤ result.2.2.2.1.lpToProvider.val ∧
      0 < result.2.2.2.2.solOutGross.val) = true := by decide +kernel
  obtain ⟨_, done, facts⟩ := accepts_iff.mp found
  simp only [sampleVisit, bind_ok, pure_ok] at done
  obtain ⟨⟨before, _⟩, _, ⟨middle, added⟩, adds, ⟨after, removed⟩, removes, rfl⟩ := done
  obtain ⟨part, paid⟩ := of_decide_eq_true facts
  let cycle : Cycle ℕ := ⟨9, .none, ⟨3, 1000000000, 0⟩, added, 9, .none, ⟨80, 0, 0⟩, removed⟩
  have runs : Run (step 2000000) before ([cycle].flatMap Cycle.trace) after :=
    .cons (bind_ok.mpr ⟨_, adds, rfl⟩) (.cons (bind_ok.mpr ⟨_, removes, rfl⟩) (.nil _))
  have parts : ∀ visit ∈ [cycle], visit.removeArgs.lpAmount.val ≤ visit.added.lpToProvider.val := by
    intro visit member
    obtain rfl := List.mem_singleton.mp member
    exact part
  exact ⟨added, removed, paid, ((cycles_never_profit runs parts).1 cycle List.mem_cons_self).1⟩

end DeepPool
