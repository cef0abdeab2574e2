import DeepPool.Proofs.AddLiquidity
import DeepPool.Proofs.System
import Mathlib.Order.Bounds.Basic

/-! What a deposit is charged and what it mints. The cap is checked on the tokens sent, and the
charge follows from the tokens that arrive. -/

namespace DeepPool
open Library

/-- The rounded charge is the least one that covers the proportion. -/
theorem charge_least {tokens solReserve tokenReserve : ℕ} (positive : 0 < tokenReserve) :
    IsLeast {charge : ℕ | tokens * solReserve ≤ charge * tokenReserve}
      ((tokens * solReserve + (tokenReserve - 1)) / tokenReserve) := by
  have covers : ∀ charge : ℕ, (tokens * solReserve + (tokenReserve - 1)) / tokenReserve ≤ charge ↔
      tokens * solReserve ≤ charge * tokenReserve := by
    intro charge
    rw [Nat.div_le_iff_le_mul_add_pred positive, Nat.mul_comm charge]
    omega
  exact ⟨(covers _).mp (le_refl _), fun charge paid => (covers charge).mpr paid⟩

/-- The floored mint is the greatest one within the proportion. -/
theorem mint_greatest {supply tokens tokenReserve : ℕ} (positive : 0 < tokenReserve) :
    IsGreatest {minted : ℕ | minted * tokenReserve ≤ tokens * supply} (supply * tokens / tokenReserve) := by
  have within : ∀ minted : ℕ, minted ≤ supply * tokens / tokenReserve ↔ minted * tokenReserve ≤ tokens * supply := by
    intro minted
    rw [Nat.le_div_iff_mul_le positive, Nat.mul_comm tokens]
  exact ⟨(within _).mp (le_refl _), fun minted paid => (within minted).mpr paid⟩

/-- Only the last narrowing of the charge can fail. -/
theorem calcProportionalCeil_isSome {input reserveA reserveB : U64} (positive : 0 < reserveA.val)
    (fits : (input.val * reserveB.val + (reserveA.val - 1)) / reserveA.val < 2 ^ 64) :
    ∃ charge, calcProportionalCeil input reserveA reserveB = some charge ∧
      charge.val = (input.val * reserveB.val + (reserveA.val - 1)) / reserveA.val := by
  obtain ⟨product, multiplied, whole⟩ := widen_mul_some input reserveB
  have one : (1 : U128).val = 1 := rfl
  have lowered : (widen reserveA).checkedSub 1 = some ((widen reserveA).saturatingSub 1) := by
    apply Word.checkedSub_of_le
    rw [widen_val, one]
    omega
  have lower : ((widen reserveA).saturatingSub 1 : U128).val = reserveA.val - 1 := rfl
  have room : product.val + ((widen reserveA).saturatingSub 1 : U128).val < 2 ^ 128 := by
    have first := input.isLt
    have second := reserveB.isLt
    have third := reserveA.isLt
    have largest : input.val * reserveB.val ≤ (2 ^ 64 - 1) * (2 ^ 64 - 1) := Nat.mul_le_mul (by omega) (by omega)
    rw [whole, lower]
    omega
  obtain ⟨raised, added, total⟩ := Word.ofNat?_isSome _ room
  obtain ⟨quotient, divided, ratio⟩ := Word.checkedDiv_widen raised (b := widen reserveA) positive
  rw [total, whole, lower, widen_val] at ratio
  have narrow : quotient.val < 2 ^ 64 := ratio ▸ fits
  obtain ⟨charge, narrowed, value⟩ := @Word.ofNat?_isSome 64 quotient.val narrow
  refine ⟨charge, ?_, value.trans ratio⟩
  simp only [calcProportionalCeil, multiplied, lowered, Word.checkedAdd, added, divided, Option.bind_eq_bind,
    Option.bind_some]
  exact narrowed

/-- A charge that can be computed for the tokens sent can be computed for what arrives of them, and is no greater. -/
theorem calcProportionalCeil_mono {net gross tokenReserve solReserve worst : U64} (part : net.val ≤ gross.val)
    (computed : calcProportionalCeil gross tokenReserve solReserve = some worst) :
    ∃ charge, calcProportionalCeil net tokenReserve solReserve = some charge ∧ charge.val ≤ worst.val := by
  obtain ⟨positive, value⟩ := calcProportionalCeil_some computed
  have less : (net.val * solReserve.val + (tokenReserve.val - 1)) / tokenReserve.val ≤ worst.val := by
    rw [value]
    exact Nat.div_le_div_right (Nat.add_le_add_right (Nat.mul_le_mul_right _ part) _)
  have bound := worst.isLt
  obtain ⟨charge, charged, same⟩ := calcProportionalCeil_isSome positive (Nat.lt_of_le_of_lt less bound)
  exact ⟨charge, charged, same ▸ less⟩

section Deposit
variable {Key : Type} [DecidableEq Key] {rent : U64} {transferFee : TransferFee} {provider : Key}
  {args : AddLiquidityArgs} {before after : Chain Key} {event : LiquidityAdded Key}

/-- The provider pays the charge, and the price of the tokens sent was checked against the cap. -/
theorem addLiquidity_charges (done : addLiquidity rent transferFee provider args before = .ok (after, event)) :
    (after.solWallets provider).val + event.solInNet.val = (before.solWallets provider).val ∧
      ∃ worst, calcProportionalCeil args.tokenAmount before.tokenReserve (before.solReserve rent) = some worst ∧
        worst.val ≤ args.maxSolAmount.val := by
  simp only [addLiquidity, bind_ok, okOr_ok, require_ok, pure_ok, exists_const] at done
  obtain ⟨_, _, _, worst, priced, _, capped, funded, sent, _, _, _, charge, _, _, paid, moved, _, _, _, _, _, _, _, _,
    _, provided, minted, last, burned, same⟩ := done
  cases same
  obtain ⟨tokens, rfl, _⟩ := transferChecked_ok (by simp) sent
  obtain ⟨lamports, rfl, payer, _⟩ := systemTransfer_ok (by simp) moved
  obtain ⟨_, rfl, _⟩ := mintTo_ok minted
  obtain ⟨_, rfl, _⟩ := mintTo_ok burned
  exact ⟨payer, worst, priced, capped⟩

end Deposit

/-- The charge is the least that covers the tokens that arrived and within the cap, the LP is the
most that they are worth, and after the check on the tokens sent the charge does not overflow. -/
theorem deposit_charges_exactly :
    (∀ (Key : Type) [DecidableEq Key] (rent : U64) (transferFee : TransferFee) (provider : Key)
      (args : AddLiquidityArgs) (before after : Chain Key) (event : LiquidityAdded Key),
      addLiquidity rent transferFee provider args before = .ok (after, event) →
      0 < event.tokensInNet.val ∧ event.tokensInNet.val ≤ args.tokenAmount.val ∧
      (after.solWallets provider).val + event.solInNet.val = (before.solWallets provider).val ∧
      IsLeast {charge : ℕ | event.tokensInNet.val * (before.solReserve rent).val ≤ charge * before.tokenReserve.val}
        event.solInNet.val ∧
      event.solInNet.val ≤ args.maxSolAmount.val ∧
      after.lp.supply.val = before.lp.supply.val + (event.lpToProvider.val + event.lpLocked.val) ∧
      IsGreatest {minted : ℕ | minted * before.tokenReserve.val ≤ event.tokensInNet.val * before.lp.supply.val}
        (event.lpToProvider.val + event.lpLocked.val)) ∧
    ∀ net gross tokenReserve solReserve : U64, net.val ≤ gross.val →
      calcProportionalCeil gross tokenReserve solReserve ≠ none →
      calcProportionalCeil net tokenReserve solReserve ≠ none := by
  constructor
  · intro Key _ rent transferFee provider args before after event done
    have deposited := addLiquidity_ok done
    obtain ⟨debited, worst, priced, capped⟩ := addLiquidity_charges done
    have arrived : event.tokensInNet.val ≤ args.tokenAmount.val := deposited.net ▸ transferFee.net_le _
    obtain ⟨charge, charged, less⟩ := calcProportionalCeil_mono arrived priced
    obtain rfl := Option.some.inj (charged.symm.trans deposited.charge)
    obtain ⟨positive, value⟩ := calcProportionalCeil_some deposited.charge
    have minted := deposited.minted
    refine ⟨deposited.positive, arrived, debited, ?_, le_trans less capped, by omega, ?_⟩
    · rw [value]
      exact charge_least positive
    · rw [deposited.lpAmount]
      exact mint_greatest positive
  · intro net gross tokenReserve solReserve part computes
    obtain ⟨worst, computed⟩ := Option.ne_none_iff_exists'.mp computes
    obtain ⟨charge, charged, _⟩ := calcProportionalCeil_mono part computed
    rw [charged]
    exact Option.some_ne_none charge

theorem deposit_charges_exactly_sample : calcProportionalCeil 990 5000000 5000000000 ≠ none ∧
    ∃ (before after : Chain ℕ) (event : LiquidityAdded ℕ),
      addLiquidity 2000000 (.rate 100 5000) 7 ⟨1000000, 2000000000, 0⟩ before = .ok (after, event) ∧
        event.solInNet.val ≤ 2000000000 ∧
        IsLeast {charge : ℕ | event.tokensInNet.val * 5000000000 ≤ charge * 5000000} event.solInNet.val := by
  obtain ⟨deposits, computes⟩ := deposit_charges_exactly
  have found : accepts (sampleHistory .none ⟨5000000, 5000000000⟩ []) (fun start =>
      (start.1.solReserve 2000000).val = 5000000000 ∧ start.1.tokenReserve.val = 5000000 ∧
        accepts (addLiquidity 2000000 (.rate 100 5000) 7 ⟨1000000, 2000000000, 0⟩ start.1) (fun _ => True)) = true := by
    decide +kernel
  obtain ⟨⟨before, _⟩, _, facts⟩ := accepts_iff.mp found
  obtain ⟨sol, token, accepted⟩ := of_decide_eq_true facts
  obtain ⟨⟨after, event⟩, done, _⟩ := accepts_iff.mp accepted
  obtain ⟨_, _, _, least, capped, _⟩ := deposits ℕ 2000000 (.rate 100 5000) 7 ⟨1000000, 2000000000, 0⟩ before after
    event done
  rw [sol, token] at least
  exact ⟨computes 990 1000 5000000 5000000000 (by decide) (by decide +kernel), before, after, event, done, capped,
    least⟩

end DeepPool
