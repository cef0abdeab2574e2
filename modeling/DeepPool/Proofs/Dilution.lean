import DeepPool.Proofs.System
import DeepPool.Library.Shares
import Mathlib.Data.Rat.Cast.Order
import Mathlib.Algebra.Order.Field.Basic

/-! LP claims over whole runs. A swap grows the product of the reserves; every other
step leaves each reserve, counted per LP, at least where it was. -/

namespace DeepPool
open Library

variable {Key : Type} {rent : U64} {transferFee : TransferFee}

def Chain.pot (rent : U64) (chain : Chain Key) : Pot ℕ :=
  ⟨(chain.solReserve rent).val, chain.tokenReserve.val, chain.lp.supply.val⟩

def Action.trades : Action Key → Bool
  | .swap .. => true
  | _ => false

variable {before middle after chain : Chain Key} {action : Action Key} {output : Option (DeepPoolEvent Key)}
  {trace first last : Trace Key}

theorem Leg.grows {reserveIn reserveOut inAfter outAfter : Nat} {event : SwapExecuted Key}
    (leg : Leg reserveIn reserveOut inAfter outAfter event) : reserveIn * reserveOut < inAfter * outAfter := by
  have charged : 0 < event.fee.val := by
    rw [leg.fee]
    exact Nat.lt_of_lt_of_le Nat.zero_lt_one (le_max_right _ _)
  have kept : inAfter = reserveIn + (event.amountInNet.val - event.fee.val) + event.fee.val := by
    have feeLe := leg.feeLe
    have paid := leg.paidIn
    omega
  rw [kept]
  apply curve_grows leg.paidOut.symm charged leg.remains
  rw [leg.payout]
  exact Nat.div_mul_le_self _ _

theorem Traded.grows {accounts : SwapAccounts Key} {args : SwapArgs} {event : SwapExecuted Key}
    (traded : Traded rent transferFee accounts args before after event) :
    (before.solReserve rent).val * before.tokenReserve.val < (after.solReserve rent).val * after.tokenReserve.val := by
  rcases traded.leg with bought | sold
  · exact bought.leg.grows
  · have grows := sold.leg.grows
    rwa [Nat.mul_comm, Nat.mul_comm after.tokenReserve.val] at grows

theorem Deposited.pot {provider : Key} {args : AddLiquidityArgs} {event : LiquidityAdded Key}
    (deposited : Deposited rent transferFee provider args before after event) :
    after.pot rent = ⟨(before.pot rent).first + event.solInNet.val, (before.pot rent).second + event.tokensInNet.val,
      (before.pot rent).shares + (event.lpToProvider.val + event.lpLocked.val)⟩ := by
  have first : (after.solReserve rent).val = (before.solReserve rent).val + event.solInNet.val := by
    have funded := deposited.sol
    have paid := deposited.solPaid
    rw [solReserve_val] at funded ⊢
    rw [solReserve_val]
    omega
  simp only [Chain.pot, first, deposited.tokensPaid, deposited.minted, Nat.add_assoc]

/-- The charge covers the tokens that arrived, and they cover the LP. -/
theorem Deposited.rounds {provider : Key} {args : AddLiquidityArgs} {event : LiquidityAdded Key}
    (deposited : Deposited rent transferFee provider args before after event) :
    event.tokensInNet.val * (before.pot rent).first ≤ event.solInNet.val * (before.pot rent).second ∧
      (event.lpToProvider.val + event.lpLocked.val) * (before.pot rent).second ≤
        event.tokensInNet.val * (before.pot rent).shares := by
  refine ⟨calcProportionalCeil_covers deposited.charge, ?_⟩
  have minted := Nat.div_mul_le_self (before.lp.supply.val * event.tokensInNet.val) before.tokenReserve.val
  rw [← deposited.lpAmount, Nat.mul_comm before.lp.supply.val] at minted
  exact minted

theorem Deposited.backs {provider : Key} {args : AddLiquidityArgs} {event : LiquidityAdded Key}
    (deposited : Deposited rent transferFee provider args before after event) :
    Pot.Backs (before.pot rent) (after.pot rent) := by
  obtain ⟨ceiled, floored⟩ := deposited.rounds
  rw [deposited.pot]
  exact Pot.Backs.deposit _ deposited.token ceiled floored

theorem Withdrawn.spent {provider : Key} {args : RemoveLiquidityArgs} {event : LiquidityRemoved Key}
    (withdrawn : Withdrawn rent transferFee provider args before after event) :
    (before.pot rent).first = (after.pot rent).first + event.solOutGross.val ∧
      (before.pot rent).second = (after.pot rent).second + event.tokensOutGross.val ∧
      (before.pot rent).shares = (after.pot rent).shares + event.lpBurned.val := by
  refine ⟨?_, withdrawn.tokensPaid.symm, withdrawn.burned.symm⟩
  have sol := withdrawn.solPaid
  have keeps := withdrawn.keepsSol
  simp only [Chain.pot, solReserve_val] at keeps ⊢
  omega

theorem Withdrawn.backs {provider : Key} {args : RemoveLiquidityArgs} {event : LiquidityRemoved Key}
    (withdrawn : Withdrawn rent transferFee provider args before after event) :
    Pot.Backs (before.pot rent) (after.pot rent) := by
  obtain ⟨sol, tokens, shares⟩ := withdrawn.spent
  apply Pot.Backs.withdraw event.solOutGross.val event.tokensOutGross.val event.lpBurned.val sol tokens shares
  · simp only [Chain.pot]
    rw [withdrawn.solShare]
    exact Nat.div_mul_le_self _ _
  · simp only [Chain.pot]
    rw [withdrawn.tokenShare]
    exact Nat.div_mul_le_self _ _

theorem Stepped.backs (stepped : Stepped rent before after action output) (still : action.trades = false) :
    Pot.Backs (before.pot rent) (after.pot rent) := by
  cases stepped with
  | swap traded => cases still
  | addLiquidity deposited => exact deposited.backs
  | removeLiquidity withdrawn => exact withdrawn.backs
  | donateSol same gained =>
    subst same
    refine .gift ?_ (le_refl _) (le_refl _)
    simp only [Chain.pot, solReserve_val]
    omega
  | donateTokens same gained =>
    subst same
    refine .gift (le_refl _) ?_ (le_refl _)
    simp only [Chain.pot, Chain.tokenReserve]
    omega
  | burnLp same burned kept balanced =>
    subst same
    refine .gift (le_refl _) (le_refl _) ?_
    simp only [Chain.pot]
    omega
  | transferLp same supply kept balanced =>
    subst same
    exact .gift (le_refl _) (le_refl _) (by simp only [Chain.pot, supply, le_refl])
  | outside same sol token =>
    subst same
    refine .gift ?_ ?_ (le_refl _)
    · simp only [Chain.pot, solReserve_val, sol, le_refl]
    · simp only [Chain.pot, Chain.tokenReserve, token, le_refl]
  | advance same later =>
    subst same
    exact .refl _

theorem Stepped.worth (stepped : Stepped rent before after action output) :
    Pot.Worth (before.pot rent) (after.pot rent) := by
  cases trades : action.trades with
  | false => exact (stepped.backs trades).worth
  | true =>
    cases stepped with
    | swap traded => exact .trade (by simp only [Chain.pot, traded.lp]) (le_of_lt traded.grows)
    | _ => cases trades

/-- The program has no way to take LP out of the pool's own account. -/
theorem Stepped.lock (stepped : Stepped rent before after action output) : before.locked.val ≤ after.locked.val := by
  cases stepped with
  | swap traded => rw [Chain.locked, Chain.locked, traded.lp]
  | addLiquidity deposited =>
    rw [deposited.lock]
    exact Nat.le_add_right _ _
  | removeLiquidity withdrawn => rw [Chain.locked, Chain.locked, withdrawn.others .pool (by simp)]
  | donateSol same gained => rw [same]; rfl
  | donateTokens same gained => rw [same]; rfl
  | burnLp same burned kept balanced =>
    subst same
    rw [Chain.locked, Chain.locked, kept]
  | transferLp same supply kept balanced =>
    subst same
    exact kept
  | outside same sol token => rw [same]; rfl
  | advance same later => rw [same]; rfl

variable [DecidableEq Key]

theorem Live.worth (live : Live rent before) (runs : Run (step rent) before trace after) :
    Pot.Worth (before.pot rent) (after.pot rent) :=
  Run.related (Live rent) (fun before after => Pot.Worth (before.pot rent) (after.pot rent)) runs
    (fun _ _ _ _ _ now accepted => ⟨(step_ok accepted).live now, (step_ok accepted).worth⟩)
    (fun _ _ => Pot.Worth.refl _) (fun _ kept _ lower upper => lower.trans upper kept.supply) live

theorem Live.backs (live : Live rent before) (runs : Run (step rent) before trace after)
    (still : ∀ entry ∈ trace, entry.1.trades = false) : Pot.Backs (before.pot rent) (after.pot rent) :=
  Run.related (Live rent) (fun before after => Pot.Backs (before.pot rent) (after.pot rent)) runs
    (fun _ _ _ _ member now accepted => ⟨(step_ok accepted).live now, (step_ok accepted).backs (still _ member)⟩)
    (fun _ _ => Pot.Backs.refl _) (fun _ kept _ lower upper => lower.trans upper kept.supply) live

theorem locked_run (runs : Run (step rent) before trace after) : before.locked.val ≤ after.locked.val :=
  Run.related (fun _ => True) (fun before after => before.locked.val ≤ after.locked.val) runs
    (fun _ _ _ _ _ _ accepted => ⟨trivial, (step_ok accepted).lock⟩) (fun _ _ => le_refl _)
    (fun _ _ _ lower upper => le_trans lower upper) trivial

/-- The LP supply never exceeds the geometric mean of the reserves. -/
theorem Reachable.covered (reachable : Reachable rent chain) :
    chain.lp.supply.val ^ 2 ≤ (chain.solReserve rent).val * chain.tokenReserve.val := by
  obtain ⟨_, _, _, _, _, born, _, creates, _, runs⟩ := reachable
  have created := createPool_ok creates
  exact (created.live.worth runs).covered created.live.supply created.covered

/-- Each step of each run: the reserves are compared per LP by cross multiplication. -/
theorem lp_never_diluted (reachable : Reachable rent before) :
    (∀ action after output, step rent before action = .ok (after, output) →
      (before.solReserve rent).val * before.tokenReserve.val * after.lp.supply.val ^ 2 ≤
        (after.solReserve rent).val * after.tokenReserve.val * before.lp.supply.val ^ 2 ∧
      (action.trades = false →
        (before.solReserve rent).val * after.lp.supply.val ≤ (after.solReserve rent).val * before.lp.supply.val ∧
        before.tokenReserve.val * after.lp.supply.val ≤ after.tokenReserve.val * before.lp.supply.val)) ∧
    before.lp.supply.val ^ 2 ≤ (before.solReserve rent).val * before.tokenReserve.val := by
  refine ⟨?_, reachable.covered⟩
  intro action after output accepted
  have stepped := step_ok accepted
  refine ⟨stepped.worth, ?_⟩
  intro still
  have backs := stepped.backs still
  exact ⟨backs.first, backs.second⟩

theorem lp_never_diluted_sample : ∃ chain : Chain ℕ, chain.lp.supply.val = 158142705 ∧
    chain.lp.supply.val ^ 2 ≤ (chain.solReserve 2000000).val * chain.tokenReserve.val := by
  have found : accepts (sampleHistory .none ⟨5000000, 5000000000⟩
      [.addLiquidity .none 9 ⟨1000, 1000000000, 0⟩, .swap .none ⟨7, 7⟩ ⟨5000000, 0, true⟩, .donateSol 8 12345,
        .removeLiquidity .none 9 ⟨1800, 0, 0⟩])
      (fun result => result.1.lp.supply.val = 158142705) = true := by decide +kernel
  obtain ⟨⟨chain, trace⟩, done, supply⟩ := accepts_iff.mp found
  exact ⟨chain, of_decide_eq_true supply, (lp_never_diluted (sampleHistory_reachable done)).2⟩

/-- Deposits, withdrawals, gifts and burned LP, by anybody and in any order: between
any two points of the run the locked LP and what it stands for only grow. -/
theorem locked_floor_ratchets (reachable : Reachable rent before) (runs : Run (step rent) before first middle)
    (continues : Run (step rent) middle last after) (still : ∀ entry ∈ first ++ last, entry.1.trades = false) :
    middle.locked.val ≤ after.locked.val ∧
    after.locked.val ≤ after.lp.supply.val ∧
    before.locked.val * (before.solReserve rent).val ≤ (after.solReserve rent).val * before.lp.supply.val ∧
    before.locked.val * before.tokenReserve.val ≤ after.tokenReserve.val * before.lp.supply.val ∧
    (middle.locked.val * (middle.solReserve rent).val / middle.lp.supply.val : ℚ) ≤
      after.locked.val * (after.solReserve rent).val / after.lp.supply.val ∧
    (middle.locked.val * middle.tokenReserve.val / middle.lp.supply.val : ℚ) ≤
      after.locked.val * after.tokenReserve.val / after.lp.supply.val := by
  have start := reachable.live
  have between := start.run runs
  have finish := between.run continues
  have grown := locked_run continues
  have whole := start.backs (runs.append continues) still
  have part := between.backs continues (fun entry member => still entry (List.mem_append_right _ member))
  have supported := le_trans (le_trans (locked_run runs) grown) finish.locked_le
  obtain ⟨sol, token⟩ := part.holding grown
  have positive : (0 : ℚ) < middle.lp.supply.val := Nat.cast_pos.mpr between.supply
  have remains : (0 : ℚ) < after.lp.supply.val := Nat.cast_pos.mpr finish.supply
  refine ⟨grown, finish.locked_le, ?_, ?_, ?_, ?_⟩
  · calc before.locked.val * (before.solReserve rent).val ≤ after.lp.supply.val * (before.solReserve rent).val :=
          Nat.mul_le_mul_right _ supported
      _ = (before.solReserve rent).val * after.lp.supply.val := Nat.mul_comm _ _
      _ ≤ (after.solReserve rent).val * before.lp.supply.val := whole.first
  · calc before.locked.val * before.tokenReserve.val ≤ after.lp.supply.val * before.tokenReserve.val :=
          Nat.mul_le_mul_right _ supported
      _ = before.tokenReserve.val * after.lp.supply.val := Nat.mul_comm _ _
      _ ≤ after.tokenReserve.val * before.lp.supply.val := whole.second
  · rw [div_le_div_iff₀ positive remains]
    exact_mod_cast sol
  · rw [div_le_div_iff₀ positive remains]
    exact_mod_cast token

theorem locked_floor_ratchets_sample : ∃ before after : Chain ℕ, before.locked.val = 31622576 ∧
    after.locked.val = 31630480 ∧ after.lp.supply.val = 31630480 ∧
    (before.locked.val * before.tokenReserve.val / before.lp.supply.val : ℚ) ≤
      after.locked.val * after.tokenReserve.val / after.lp.supply.val := by
  have found : accepts (sampleHistory .none ⟨5000000, 5000000000⟩ [])
      (fun born => born.1.locked.val = 31622576 ∧ accepts (execute (step 2000000) born.1
        [.addLiquidity .none 9 ⟨3333, 1000000000, 0⟩, .removeLiquidity .none 0 ⟨126490307, 0, 0⟩,
          .removeLiquidity .none 9 ⟨97494, 0, 0⟩])
        (fun result => result.1.locked.val = 31630480 ∧ result.1.lp.supply.val = 31630480 ∧
          ∀ entry ∈ result.2, entry.1.trades = false)) = true := by decide +kernel
  obtain ⟨⟨before, _⟩, born, start⟩ := accepts_iff.mp found
  obtain ⟨locked, continues⟩ := of_decide_eq_true start
  obtain ⟨⟨after, trace⟩, done, finish⟩ := accepts_iff.mp continues
  obtain ⟨grown, supply, still⟩ := of_decide_eq_true finish
  have ratchets := locked_floor_ratchets (sampleHistory_reachable born) (.nil _) (execute_run done) still
  exact ⟨before, after, locked, grown, supply, ratchets.2.2.2.2.2⟩

end DeepPool
