import DeepPool.Proofs.Dilution
import Mathlib.Algebra.BigOperators.Ring.List

/-! Liquidity moved in parts. The price of what is left never falls between the parts, so
rounding each part gains nothing over moving the whole at once. -/

namespace DeepPool
open Library

variable {Key : Type} {rent : U64} {before after : Chain Key}

structure Withdrawal (Key : Type) where
  transferFee : TransferFee
  provider : Key
  args : RemoveLiquidityArgs
  event : LiquidityRemoved Key

namespace Withdrawal

def entry (withdrawal : Withdrawal Key) : Action Key × Option (DeepPoolEvent Key) :=
  (.removeLiquidity withdrawal.transferFee withdrawal.provider withdrawal.args,
    some (.liquidityRemoved withdrawal.event))

def burned (withdrawal : Withdrawal Key) : ℕ := withdrawal.args.lpAmount.val
def sol (withdrawal : Withdrawal Key) : ℕ := withdrawal.event.solOutGross.val
def tokens (withdrawal : Withdrawal Key) : ℕ := withdrawal.event.tokensOutGross.val

end Withdrawal

structure Deposit (Key : Type) where
  transferFee : TransferFee
  provider : Key
  args : AddLiquidityArgs
  event : LiquidityAdded Key

namespace Deposit

def entry (deposit : Deposit Key) : Action Key × Option (DeepPoolEvent Key) :=
  (.addLiquidity deposit.transferFee deposit.provider deposit.args, some (.liquidityAdded deposit.event))

def charged (deposit : Deposit Key) : ℕ := deposit.event.solInGross.val
def paid (deposit : Deposit Key) : ℕ := deposit.event.tokensInNet.val
def minted (deposit : Deposit Key) : ℕ := deposit.event.lpToProvider.val + deposit.event.lpLocked.val

end Deposit

/-- What a run of withdrawals did to the pool. Each part pays at least its share of the first
reserves. -/
structure Redeemed (before after : Pot ℕ) (withdrawals : List (Withdrawal Key)) : Prop where
  backs : Pot.Backs before after
  first : before.first = after.first + (withdrawals.map Withdrawal.sol).sum
  second : before.second = after.second + (withdrawals.map Withdrawal.tokens).sum
  shares : before.shares = after.shares + (withdrawals.map Withdrawal.burned).sum
  firstParts : ∀ withdrawal ∈ withdrawals, withdrawal.burned * before.first / before.shares ≤ withdrawal.sol
  secondParts : ∀ withdrawal ∈ withdrawals, withdrawal.burned * before.second / before.shares ≤ withdrawal.tokens

/-- What a run of deposits did to the pool. -/
structure Collected (before after : Pot ℕ) (deposits : List (Deposit Key)) : Prop where
  dearer : Pot.Dearer before after
  first : after.first = before.first + (deposits.map Deposit.charged).sum
  second : after.second = before.second + (deposits.map Deposit.paid).sum
  shares : after.shares = before.shares + (deposits.map Deposit.minted).sum

/-- A share of reserves that are worth more per share is no smaller. -/
private theorem share_le {reserve supply later rest burned : ℕ} (positive : 0 < rest)
    (grown : reserve * rest ≤ later * supply) : burned * reserve / supply ≤ burned * later / rest := by
  rcases Nat.eq_zero_or_pos supply with rfl | some_
  · rw [Nat.div_zero]
    exact Nat.zero_le _
  · rw [Nat.le_div_iff_mul_le positive]
    apply le_of_mul_le_mul_right _ some_
    calc burned * reserve / supply * rest * supply = burned * reserve / supply * supply * rest := by ring
      _ ≤ burned * reserve * rest := Nat.mul_le_mul_right _ (Nat.div_mul_le_self _ _)
      _ = burned * (reserve * rest) := by ring
      _ ≤ burned * (later * supply) := Nat.mul_le_mul_left _ grown
      _ = burned * later * supply := by ring

/-- Between the floors of the parts and the floor of their sum. -/
private theorem parts_bound {withdrawals : List (Withdrawal Key)} {reserve supply : ℕ} {paid : Withdrawal Key → ℕ}
    (some_ : withdrawals ≠ []) (positive : 0 < supply)
    (covered : (withdrawals.map paid).sum * supply ≤ (withdrawals.map Withdrawal.burned).sum * reserve)
    (parts : ∀ withdrawal ∈ withdrawals, withdrawal.burned * reserve / supply ≤ paid withdrawal) :
    (withdrawals.map paid).sum ≤ (withdrawals.map Withdrawal.burned).sum * reserve / supply ∧
      (withdrawals.map Withdrawal.burned).sum * reserve / supply ≤
        (withdrawals.map paid).sum + (withdrawals.length - 1) := by
  constructor
  · exact (Nat.le_div_iff_mul_le positive).mpr covered
  · have some_ : (withdrawals.map fun withdrawal => withdrawal.burned * reserve) ≠ [] := by simpa using some_
    have floors := sum_div_le positive some_
    rw [List.map_map, List.length_map, List.sum_map_mul_right] at floors
    have each : (withdrawals.map fun withdrawal => withdrawal.burned * reserve / supply).sum ≤
        (withdrawals.map paid).sum := List.sum_le_sum parts
    exact le_trans floors (Nat.add_le_add_right each _)

/-- One redemption of all the LP pays as much as the parts, and less than a unit more for
each part but one. -/
theorem Redeemed.bounds {first last : Pot ℕ} {withdrawals : List (Withdrawal Key)}
    (redeemed : Redeemed first last withdrawals) (some_ : withdrawals ≠ []) (positive : 0 < first.shares) :
    ((withdrawals.map Withdrawal.sol).sum ≤ (withdrawals.map Withdrawal.burned).sum * first.first / first.shares ∧
      (withdrawals.map Withdrawal.burned).sum * first.first / first.shares ≤
        (withdrawals.map Withdrawal.sol).sum + (withdrawals.length - 1)) ∧
    ((withdrawals.map Withdrawal.tokens).sum ≤ (withdrawals.map Withdrawal.burned).sum * first.second / first.shares ∧
      (withdrawals.map Withdrawal.burned).sum * first.second / first.shares ≤
        (withdrawals.map Withdrawal.tokens).sum + (withdrawals.length - 1)) := by
  obtain ⟨sol, tokens⟩ := redeemed.backs.paid_le redeemed.first redeemed.second redeemed.shares
  exact ⟨parts_bound some_ positive sol redeemed.firstParts, parts_bound some_ positive tokens redeemed.secondParts⟩

/-- One deposit of all the tokens is charged no more than the parts and mints no less. -/
theorem Collected.bounds {first last : Pot ℕ} {deposits : List (Deposit Key)} (collected : Collected first last deposits)
    (positive : 0 < first.second) :
    ((deposits.map Deposit.paid).sum * first.first + (first.second - 1)) / first.second ≤
      (deposits.map Deposit.charged).sum ∧
    (deposits.map Deposit.minted).sum ≤ first.shares * (deposits.map Deposit.paid).sum / first.second := by
  obtain ⟨charged, minted⟩ := collected.dearer.charged_ge collected.first collected.second collected.shares
  constructor
  · apply Nat.le_of_lt_succ
    rw [Nat.div_lt_iff_lt_mul positive, Nat.succ_mul]
    omega
  · rw [Nat.le_div_iff_mul_le positive, Nat.mul_comm first.shares]
    exact minted

variable [DecidableEq Key]

/-- Nothing can be withdrawn from a pool without LP. -/
private theorem runs_supply {withdrawals : List (Withdrawal Key)} (some_ : withdrawals ≠ [])
    (runs : Run (step rent) before (withdrawals.map Withdrawal.entry) after) : 0 < before.lp.supply.val := by
  cases withdrawals with
  | nil => exact absurd rfl some_
  | cons withdrawal withdrawals =>
    cases runs with
    | cons removes rest =>
      cases step_ok removes with
      | removeLiquidity withdrawn => exact withdrawn.supply

theorem redeemed_run {withdrawals : List (Withdrawal Key)}
    (runs : Run (step rent) before (withdrawals.map Withdrawal.entry) after) :
    Redeemed (before.pot rent) (after.pot rent) withdrawals := by
  induction withdrawals generalizing before with
  | nil =>
    cases runs
    constructor
    · exact .refl _
    all_goals simp
  | cons withdrawal withdrawals ih =>
    cases runs with
    | @cons _ middle _ _ _ _ removes rest =>
      cases step_ok removes with
      | removeLiquidity withdrawn =>
        have later := ih rest
        have backs := withdrawn.backs
        obtain ⟨sol, tokens, shares⟩ := withdrawn.spent
        have same : withdrawal.event.lpBurned.val = withdrawal.burned := by rw [withdrawn.lpAmount, Withdrawal.burned]
        have positive : withdrawals ≠ [] → 0 < (middle.pot rent).shares := fun some_ => runs_supply some_ rest
        have chained : Pot.Backs (before.pot rent) (after.pot rent) := by
          rcases eq_or_ne withdrawals [] with rfl | some_
          · cases rest
            exact backs
          · exact backs.trans later.backs (positive some_)
        constructor
        case backs => exact chained
        case first =>
          have spent := later.first
          simp only [List.map_cons, List.sum_cons, Withdrawal.sol] at spent ⊢
          omega
        case second =>
          have spent := later.second
          simp only [List.map_cons, List.sum_cons, Withdrawal.tokens] at spent ⊢
          omega
        case shares =>
          have burned := later.shares
          simp only [List.map_cons, List.sum_cons] at burned ⊢
          omega
        case firstParts =>
          intro part member
          rcases List.mem_cons.mp member with rfl | listed
          · rw [Withdrawal.sol, withdrawn.solShare, same]
            exact le_refl _
          · exact le_trans (share_le (positive (List.ne_nil_of_mem listed)) backs.first) (later.firstParts _ listed)
        case secondParts =>
          intro part member
          rcases List.mem_cons.mp member with rfl | listed
          · rw [Withdrawal.tokens, withdrawn.tokenShare, same]
            exact le_refl _
          · exact le_trans (share_le (positive (List.ne_nil_of_mem listed)) backs.second) (later.secondParts _ listed)

theorem collected_run {deposits : List (Deposit Key)}
    (runs : Run (step rent) before (deposits.map Deposit.entry) after) :
    Collected (before.pot rent) (after.pot rent) deposits := by
  induction deposits generalizing before with
  | nil =>
    cases runs
    constructor
    · exact .refl _
    all_goals simp
  | cons deposit deposits ih =>
    cases runs with
    | @cons _ middle _ _ _ _ adds rest =>
      cases step_ok adds with
      | addLiquidity deposited =>
        have later := ih rest
        have pot := deposited.pot
        have step := Pot.Dearer.deposit _ deposited.rounds.1 deposited.rounds.2
        rw [← pot] at step
        have positive : 0 < (middle.pot rent).second := by
          rw [pot]
          exact Nat.lt_of_lt_of_le deposited.token (Nat.le_add_right _ _)
        constructor
        case dearer => exact step.trans later.dearer positive
        case first =>
          rw [later.first, pot, List.map_cons, List.sum_cons, Deposit.charged, deposited.charged, Nat.add_assoc]
        case second => rw [later.second, pot, List.map_cons, List.sum_cons, Deposit.paid, Nat.add_assoc]
        case shares => rw [later.shares, pot, List.map_cons, List.sum_cons, Deposit.minted, Nat.add_assoc]

/-- Moving liquidity in parts gains nothing over moving it at once. -/
theorem splitting_never_gains (rent : U64) :
    (∀ (before after : Chain Key) (withdrawals : List (Withdrawal Key)), withdrawals ≠ [] →
      Run (step rent) before (withdrawals.map Withdrawal.entry) after →
      ∃ lpAmount solOut tokensOut : U64, lpAmount.val = (withdrawals.map Withdrawal.burned).sum ∧
        calcLpRedeem lpAmount (before.solReserve rent) before.lp.supply = some solOut ∧
        calcLpRedeem lpAmount before.tokenReserve before.lp.supply = some tokensOut ∧
        (withdrawals.map Withdrawal.sol).sum ≤ solOut.val ∧
        solOut.val ≤ (withdrawals.map Withdrawal.sol).sum + (withdrawals.length - 1) ∧
        (withdrawals.map Withdrawal.tokens).sum ≤ tokensOut.val ∧
        tokensOut.val ≤ (withdrawals.map Withdrawal.tokens).sum + (withdrawals.length - 1) ∧
        ∀ transferFee provider args whole event, args.lpAmount = lpAmount →
          removeLiquidity rent transferFee provider args before = .ok (whole, event) →
          event.solOutGross = solOut ∧ event.tokensOutGross = tokensOut) ∧
    (∀ (before after : Chain Key) (deposits : List (Deposit Key)),
      Run (step rent) before (deposits.map Deposit.entry) after →
      ∀ transferFee provider args whole event,
        addLiquidity rent transferFee provider args before = .ok (whole, event) →
        event.tokensInNet.val = (deposits.map Deposit.paid).sum →
        event.solInGross.val ≤ (deposits.map Deposit.charged).sum ∧
        (deposits.map Deposit.minted).sum ≤ event.lpToProvider.val + event.lpLocked.val) := by
  constructor
  · intro before after withdrawals some_ runs
    have redeemed := redeemed_run runs
    have positive := runs_supply some_ runs
    have part : (withdrawals.map Withdrawal.burned).sum ≤ before.lp.supply.val := by
      have shares : before.lp.supply.val = after.lp.supply.val + _ := redeemed.shares
      omega
    let lpAmount : U64 := ⟨(withdrawals.map Withdrawal.burned).sum, Nat.lt_of_le_of_lt part before.lp.supply.isLt⟩
    have part : lpAmount.val ≤ before.lp.supply.val := part
    obtain ⟨solOut, solShare, sol, _⟩ := calcLpRedeem_isSome (before.solReserve rent) part positive
    obtain ⟨tokensOut, tokenShare, tokens, _⟩ := calcLpRedeem_isSome before.tokenReserve part positive
    obtain ⟨⟨solLow, solHigh⟩, tokenLow, tokenHigh⟩ := redeemed.bounds some_ positive
    refine ⟨lpAmount, solOut, tokensOut, rfl, solShare, tokenShare, le_of_le_of_eq solLow sol.symm,
      le_of_eq_of_le sol solHigh, le_of_le_of_eq tokenLow tokens.symm, le_of_eq_of_le tokens tokenHigh, ?_⟩
    intro transferFee provider args whole event same done
    have withdrawn := removeLiquidity_ok done
    constructor
    · apply Fin.ext
      rw [withdrawn.solShare, withdrawn.lpAmount, same, sol]
    · apply Fin.ext
      rw [withdrawn.tokenShare, withdrawn.lpAmount, same, tokens]
  · intro before after deposits runs transferFee provider args whole event done same
    have deposited := addLiquidity_ok done
    obtain ⟨charged, minted⟩ := (collected_run runs).bounds deposited.token
    constructor
    · rw [deposited.charged, (calcProportionalCeil_some deposited.charge).2, same]
      exact charged
    · rw [deposited.lpAmount, same]
      exact minted

/-- Two units of LP and six tokens, in halves and at once. -/
def sampleSplit : Except ProgramError (LiquidityRemoved ℕ × LiquidityRemoved ℕ × LiquidityRemoved ℕ ×
    LiquidityAdded ℕ × LiquidityAdded ℕ × LiquidityAdded ℕ) := do
  let (before, _) ← sampleHistory .none ⟨5000000, 5000000000⟩ [.swap .none ⟨7, 7⟩ ⟨123457, 0, true⟩]
  let (part, firstOut) ← removeLiquidity 2000000 .none 0 ⟨1, 0, 0⟩ before
  let (_, secondOut) ← removeLiquidity 2000000 .none 0 ⟨1, 0, 0⟩ part
  let (_, wholeOut) ← removeLiquidity 2000000 .none 0 ⟨2, 0, 0⟩ before
  let (part, firstIn) ← addLiquidity 2000000 .none 9 ⟨3, 1000000000, 0⟩ before
  let (_, secondIn) ← addLiquidity 2000000 .none 9 ⟨3, 1000000000, 0⟩ part
  let (_, wholeIn) ← addLiquidity 2000000 .none 9 ⟨6, 1000000000, 0⟩ before
  return (firstOut, secondOut, wholeOut, firstIn, secondIn, wholeIn)

theorem splitting_never_gains_sample :
    ∃ firstOut secondOut wholeOut : LiquidityRemoved ℕ, ∃ firstIn secondIn wholeIn : LiquidityAdded ℕ,
      firstOut.solOutGross.val + secondOut.solOutGross.val < wholeOut.solOutGross.val ∧
      wholeOut.solOutGross.val ≤ firstOut.solOutGross.val + secondOut.solOutGross.val + 1 ∧
      wholeIn.solInGross.val ≤ firstIn.solInGross.val + secondIn.solInGross.val := by
  have found : accepts sampleSplit (fun (firstOut, secondOut, wholeOut, firstIn, secondIn, wholeIn) =>
      firstOut.solOutGross.val + secondOut.solOutGross.val < wholeOut.solOutGross.val ∧
      wholeIn.tokensInNet.val = firstIn.tokensInNet.val + secondIn.tokensInNet.val) = true := by decide +kernel
  obtain ⟨_, done, facts⟩ := accepts_iff.mp found
  simp only [sampleSplit, bind_ok, pure_ok] at done
  obtain ⟨⟨before, _⟩, _, ⟨rest, firstOut⟩, removes, ⟨after, secondOut⟩, again, ⟨_, wholeOut⟩, atOnce,
    ⟨grown, firstIn⟩, adds, ⟨full, secondIn⟩, more, ⟨_, wholeIn⟩, together, rfl⟩ := done
  obtain ⟨lost, same⟩ := of_decide_eq_true facts
  obtain ⟨withdrawals, deposits⟩ := @splitting_never_gains ℕ _ 2000000
  let out (event : LiquidityRemoved ℕ) : Withdrawal ℕ := ⟨.none, 0, ⟨1, 0, 0⟩, event⟩
  let paidIn (event : LiquidityAdded ℕ) : Deposit ℕ := ⟨.none, 9, ⟨3, 1000000000, 0⟩, event⟩
  have left : Run (step 2000000) before ([out firstOut, out secondOut].map Withdrawal.entry) after :=
    .cons (bind_ok.mpr ⟨_, removes, rfl⟩) (.cons (bind_ok.mpr ⟨_, again, rfl⟩) (.nil _))
  have joined : Run (step 2000000) before ([paidIn firstIn, paidIn secondIn].map Deposit.entry) full :=
    .cons (bind_ok.mpr ⟨_, adds, rfl⟩) (.cons (bind_ok.mpr ⟨_, more, rfl⟩) (.nil _))
  obtain ⟨lpAmount, solOut, tokensOut, burned, _, _, _, high, _, _, single⟩ :=
    withdrawals _ _ _ (List.cons_ne_nil _ _) left
  obtain ⟨sol, _⟩ := single _ _ _ _ _ (Fin.ext burned.symm) atOnce
  refine ⟨firstOut, secondOut, wholeOut, firstIn, secondIn, wholeIn, lost, ?_, ?_⟩
  · rw [sol]
    exact high
  · exact (deposits _ _ _ joined _ _ _ _ _ together same).1

end DeepPool
